/-
# One owner of the contexts at a time

At most one process of an ensemble holds the contexts exclusively: the owner.  Only the owner, and
a call that becomes the owner by its step, can alter the books of the manager.

So an invariant of runs may speak of the session and of the stage of its owner, if it has one.  Such
an invariant needs no more than this (`Upheld`): bystanders keep it, whatever the stage of the
owner; and a step of the owner, which nobody disturbs, takes it from the stage before to the stage
after.  `Upheld.run` carries it along every run.
-/
import Folio.Proofs.Ensemble.Bystander

namespace Folio

/-! ## 1. The owner -/

/-- The stage, if it holds the contexts exclusively. -/
def Stage.owned? (stage : Stage) : Option Stage := if stage.owns then some stage else none

/-- The stage of a process that holds the contexts exclusively. -/
def Process.owned? : Process → Option Stage
  | .manager stage => stage.owned?
  | _ => none

/-- The stage to which a call goes on, if it holds the contexts exclusively. -/
def Stage.nextOwned? : Stage ⊕ ManagerResult → Option Stage
  | .inl stage => stage.owned?
  | .inr _ => none

/-- The stages that hold the contexts exclusively. -/
def Ensemble.owners (processes : List Process) : List Stage := processes.filterMap Process.owned?

/-- A call that does not alter the books does not become the owner. -/
theorem Stage.nextOwned?_of_bystander (s : Session) (stage : Stage) (answer : stage.need.Answer)
    (bystander : stage.alters = false) : Stage.nextOwned? (stage.resume s answer).2 = none := by
  cases stage with
  | called op =>
    simp only [Stage.resume]
    split
    · cases op <;> rfl
    · cases op <;> first
        | rfl
        | (simp only [Manager.begin]; split <;> rfl)
  | reading query => cases query <;> rfl
  | finding path widget model otherwise =>
    simp only [Stage.resume]
    split
    · rfl
    · cases otherwise <;> rfl
  | searching context widget otherwise =>
    simp only [Stage.resume]
    split
    · rfl
    · cases otherwise <;> rfl
  | readingBindings query => cases query <;> rfl
  | confirming widget =>
    simp only [Stage.resume]
    split <;> rfl
  | deleting path => cases answer <;> rfl
  | _ => cases bystander

namespace Ensemble

@[simp] theorem owners_append (ps qs : List Process) :
    owners (ps ++ qs) = owners ps ++ owners qs := List.filterMap_append

@[simp] theorem owners_background (works : List Background) :
    owners (works.map .ofBackground) = [] := by
  refine List.filterMap_eq_nil_iff.mpr fun p hp => ?_
  obtain ⟨work, -, rfl⟩ := List.mem_map.mp hp
  cases work <;> rfl

/-- A call of the host that has not begun owns nothing. -/
theorem owned?_of_isCall (p : Process) (call : p.isCall = true) : p.owned? = none := by
  cases p with
  | manager stage =>
    cases stage with
    | called op => rfl
    | _ => cases call
  | _ => rfl

/-- Whoever may have the contexts exclusively is alone with them. -/
theorem owners_of_permits {others : List Process}
    (h : permits others (.lock .contexts .exclusive) = true) : owners others = [] := by
  refine List.filterMap_eq_nil_iff.mpr fun p hp => ?_
  have free := List.all_eq_true.mp h p hp
  cases p with
  | manager stage =>
    have notOwns : stage.owns = false := by
      rw [Bool.eq_false_iff]
      intro owns
      have held := List.all_eq_true.mp free _ (List.contains_iff_mem.mp owns)
      simp at held
    simp [Process.owned?, Stage.owned?, notOwns]
  | _ => rfl

/-- A bystander is not the owner. -/
theorem owned?_of_bystander (p : Process) (bystander : p.alters = false) : p.owned? = none := by
  cases p with
  | manager stage =>
    have notOwns : stage.owns = false := by
      cases stage <;> first | rfl | exact bystander
    rw [Process.owned?, Stage.owned?, notOwns]
    rfl
  | _ => rfl

/-- A bystander does not become the owner. -/
theorem owners_continuing (s : Session) (p : Process) (answer : p.need.Answer)
    (bystander : p.alters = false) : owners (continuing (p.resume s answer).2) = [] := by
  cases next : (p.resume s answer).2 with
  | inr outcome => rfl
  | inl q =>
    cases Process.goesOn next with
    | @conducts stage after given follows =>
      have none_owned := Stage.nextOwned?_of_bystander s stage given bystander
      rw [follows] at none_owned
      simp only [continuing, owners, List.filterMap_cons, Process.owned?]
      rw [show Stage.owned? _ = none from none_owned]
      rfl
    | _ => rfl

/-- A process that alters the books and does not own the contexts is about to have them. -/
theorem permits_of_alters {others : List Process} {stage : Stage}
    (alters : stage.alters = true) (allowed : permits others stage.need = true)
    (alone : (stage.owned?.toList ++ owners others).length ≤ 1) : owners others = [] := by
  cases owns : stage.owns with
  | true =>
    rw [show stage.owned? = some stage by rw [Stage.owned?, owns, if_pos rfl]] at alone
    exact List.eq_nil_of_length_eq_zero (by simpa using alone)
  | false =>
    cases stage with
    | updating update => exact owners_of_permits allowed
    | _ => exact absurd (alters.symm.trans owns) (by decide)

/-- The owners among those with which a call goes on. -/
theorem owners_continuing_manager (s : Session) (stage : Stage) (answer : stage.need.Answer) :
    owners (continuing ((Process.manager stage).resume s answer).2) =
      (Stage.nextOwned? (stage.resume s answer).2).toList := by
  simp only [Process.resume]
  split
  · next next h =>
    rw [h]
    simp only [continuing, owners, List.filterMap_cons, Process.owned?, Stage.nextOwned?]
    cases next.owned? <;> rfl
  · next h =>
    rw [h]
    rfl

/-! ## 2. Invariants of runs -/

/-- **What makes a property of the session and its owner an invariant** of the runs in which the
host does only what is allowed and all processes fit. -/
structure Upheld (allowed : Deed → Prop) (fits : Process → Prop)
    (Inv : Session → Option Stage → Prop) : Prop where
  /-- Background work fits. -/
  background : ∀ work, fits (.ofBackground work)
  /-- What fits goes on as something that fits. -/
  continues : ∀ (s : Session) (p : Process) (answer : p.need.Answer) (next : Process), fits p →
    (p.resume s answer).2 = .inl next → fits next
  /-- Background work is taken over. -/
  started : ∀ (s : Session) (owner : Option Stage), Inv s owner →
    Inv { s with started := [] } owner
  deed : ∀ (s : Session) (owner : Option Stage) (d : Deed), allowed d → Inv s owner →
    Inv (d.apply s) owner
  bystander : ∀ (s : Session) (owner : Option Stage) (p : Process) (answer : p.need.Answer),
    fits p → p.alters = false → Inv s owner → Inv (p.resume s answer).1 owner
  owner : ∀ (s : Session) (stage : Stage) (answer : stage.need.Answer),
    stage.alters = true → Inv s stage.owned? →
    Inv (stage.resume s answer).1 (Stage.nextOwned? (stage.resume s answer).2)

/-- The moves of such runs. -/
def Allowed (allowed : Deed → Prop) (fits : Process → Prop) : Move → Prop
  | .deed d => allowed d
  | .enter p => fits p
  | .go _ _ => True

/-- **An ensemble is orderly**: at most one process owns the contexts, and the invariant holds with
the stage of that one. -/
structure Orderly (fits : Process → Prop) (Inv : Session → Option Stage → Prop)
    (e : Ensemble) : Prop where
  fits : ∀ p ∈ e.processes, fits p
  alone : (owners e.processes).length ≤ 1
  inv : Inv e.session (owners e.processes).head?

section Invariant

variable {allowed : Deed → Prop} {fits : Process → Prop} {Inv : Session → Option Stage → Prop}

/-- Taking over background work adds no owner. -/
theorem Orderly.of_absorb (h : Upheld allowed fits Inv) {s : Session} {processes : List Process}
    (fit : ∀ p ∈ processes, fits p) (alone : (owners processes).length ≤ 1)
    (inv : Inv s (owners processes).head?) : Orderly fits Inv (absorb s processes) where
  fits p hp := by
    rcases List.mem_append.mp hp with hp | hp
    · exact fit p hp
    · obtain ⟨work, -, rfl⟩ := List.mem_map.mp hp
      exact h.background work
  alone := by
    simp only [Ensemble.absorb, owners_append, owners_background, List.append_nil]
    exact alone
  inv := by
    simp only [Ensemble.absorb, owners_append, owners_background, List.append_nil]
    exact h.started s _ inv

/-- The order of the processes makes no difference. -/
theorem Orderly.perm {s : Session} {ps qs : List Process} (orderly : Orderly fits Inv ⟨s, ps⟩)
    (h : ps.Perm qs) : Orderly fits Inv ⟨s, qs⟩ := by
  have same : owners ps = owners qs := by
    have perm : (owners ps).Perm (owners qs) := h.filterMap _
    have alone : (owners ps).length ≤ 1 := orderly.alone
    rcases hl : owners ps with _ | ⟨o, _ | ⟨_, _⟩⟩
    · rw [hl] at perm
      exact (List.nil_perm.mp perm).symm
    · rw [hl] at perm
      exact List.singleton_perm.mp perm
    · rw [hl] at alone
      simp at alone
  exact ⟨fun p hp => orderly.fits p (h.mem_iff.mpr hp), same ▸ orderly.alone, same ▸ orderly.inv⟩

/-- Those that there are after a process has gone on fit. -/
theorem Orderly.fits_continuing (h : Upheld allowed fits Inv) {s : Session} {p : Process}
    {others : List Process} (orderly : Orderly fits Inv ⟨s, p :: others⟩) (answer : p.need.Answer) :
    ∀ q ∈ others ++ continuing (p.resume s answer).2, fits q := by
  intro q hq
  rcases List.mem_append.mp hq with hq | hq
  · exact orderly.fits q (List.mem_cons_of_mem p hq)
  · cases hnext : (p.resume s answer).2 with
    | inl next =>
      rw [hnext] at hq
      rw [List.mem_singleton.mp hq]
      exact h.continues s p answer next (orderly.fits p List.mem_cons_self) hnext
    | inr outcome =>
      rw [hnext] at hq
      exact absurd hq List.not_mem_nil

/-- A bystander goes on: the owner, if there is one, is among the others. -/
theorem Orderly.go_bystander (h : Upheld allowed fits Inv) {s : Session} {p : Process}
    {others : List Process} (orderly : Orderly fits Inv ⟨s, p :: others⟩) (answer : p.need.Answer)
    (bystander : p.alters = false) :
    Orderly fits Inv
      (absorb (p.resume s answer).1 (others ++ continuing (p.resume s answer).2)) := by
  have same : owners (others ++ continuing (p.resume s answer).2) = owners (p :: others) := by
    rw [owners_append, owners_continuing s p answer bystander, List.append_nil, owners, owners,
      List.filterMap_cons, owned?_of_bystander p bystander]
  refine .of_absorb h (orderly.fits_continuing h answer) ?_ ?_
  · rw [same]
    exact orderly.alone
  · rw [same]
    exact h.bystander s _ p answer (orderly.fits p List.mem_cons_self) bystander orderly.inv

/-- When a call goes on that alters the books, the others own nothing, and the invariant holds with
the stage that it is at. -/
theorem Orderly.alone_of_alters {s : Session} {stage : Stage} {others : List Process}
    (orderly : Orderly fits Inv ⟨s, .manager stage :: others⟩) (alters : stage.alters = true)
    (free : permits others stage.need = true) : owners others = [] ∧ Inv s stage.owned? := by
  have split : owners (.manager stage :: others) = stage.owned?.toList ++ owners others := by
    rw [owners, List.filterMap_cons, Process.owned?]
    cases stage.owned? <;> rfl
  obtain ⟨-, alone, inv⟩ := orderly
  simp only [split] at alone inv
  have nobody : owners others = [] := permits_of_alters alters free alone
  refine ⟨nobody, ?_⟩
  rw [nobody, List.append_nil] at inv
  cases ho : stage.owned? <;> simpa [ho] using inv

/-- What a call does to the session is what its stage does. -/
theorem session_manager (s : Session) (stage : Stage) (answer : stage.need.Answer) :
    ((Process.manager stage).resume s answer).1 = (stage.resume s answer).1 := by
  simp only [Process.resume]
  split <;> (next hr => rw [hr])

/-- A call goes on that alters the books: it is the owner before and after. -/
theorem Orderly.go_owner (h : Upheld allowed fits Inv) {s : Session} {stage : Stage}
    {others : List Process} (orderly : Orderly fits Inv ⟨s, .manager stage :: others⟩)
    (answer : stage.need.Answer) (alters : stage.alters = true)
    (free : permits others stage.need = true) :
    Orderly fits Inv (absorb ((Process.manager stage).resume s answer).1
      (others ++ continuing ((Process.manager stage).resume s answer).2)) := by
  obtain ⟨nobody, before⟩ := orderly.alone_of_alters alters free
  have next : owners (others ++ continuing ((Process.manager stage).resume s answer).2) =
      (Stage.nextOwned? (stage.resume s answer).2).toList := by
    rw [owners_append, nobody, List.nil_append]
    exact owners_continuing_manager s stage answer
  have after := h.owner s stage answer alters before
  refine .of_absorb h (orderly.fits_continuing h answer) ?_ ?_
  · rw [next]
    cases Stage.nextOwned? (stage.resume s answer).2 <;> simp
  · rw [next, session_manager]
    cases ho : Stage.nextOwned? (stage.resume s answer).2 <;> simpa [ho] using after

/-- **A process goes on.** -/
theorem Orderly.go (h : Upheld allowed fits Inv) {e : Ensemble} (orderly : Orderly fits Inv e)
    (i : Nat) (oracle : Oracle) : Orderly fits Inv (e.go i oracle) := by
  rcases go_cases e i oracle with same | ⟨p, others, perm, free, same⟩
  · rwa [same]
  · rw [same]
    have front : Orderly fits Inv ⟨e.session, p :: others⟩ := orderly.perm perm.symm
    cases alters : p.alters with
    | false => exact front.go_bystander h _ alters
    | true =>
      cases p with
      | manager stage => exact front.go_owner h _ alters free
      | _ => cases alters

/-- **One move.** -/
theorem Orderly.step (h : Upheld allowed fits Inv) {e : Ensemble} (orderly : Orderly fits Inv e) :
    (m : Move) → Allowed allowed fits m → Orderly fits Inv (e.step m)
  | .deed d, hd => .of_absorb h orderly.fits orderly.alone (h.deed _ _ d hd orderly.inv)
  | .enter p, hp => by
    simp only [Ensemble.step]
    split
    · next call =>
      have ownersNext : owners (e.processes ++ [p]) = owners e.processes := by
        rw [owners_append]
        simp [owners, owned?_of_isCall p call]
      refine ⟨fun q hq => ?_, ?_, ?_⟩
      · rcases List.mem_append.mp hq with hq | hq
        · exact orderly.fits q hq
        · rw [List.mem_singleton.mp hq]
          exact hp
      · rw [ownersNext]
        exact orderly.alone
      · rw [ownersNext]
        exact orderly.inv
    · exact orderly
  | .go i oracle, _ => orderly.go h i oracle

/-- **Every run of allowed moves keeps an ensemble orderly.** -/
theorem Orderly.run (h : Upheld allowed fits Inv) {e : Ensemble} (orderly : Orderly fits Inv e)
    (moves : List Move) (ok : ∀ m ∈ moves, Allowed allowed fits m) :
    Orderly fits Inv (e.run moves) :=
  run_keeps (fun _ m hm he => he.step h m hm) moves e ok orderly

/-- A fresh ensemble is orderly. -/
theorem Orderly.start {config : Settings} (h : Inv (.create config) none) :
    Orderly fits Inv (.start config) := ⟨fun _ hp => absurd hp List.not_mem_nil, Nat.zero_le _, h⟩

end Invariant

end Ensemble

end Folio
