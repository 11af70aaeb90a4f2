/-
# Who stands in line for a lock

Whoever holds a lock and whoever waits for it stand in one line, the holders first.  Asking for the
lock puts somebody at its end, giving it back takes somebody out, and granting it only moves the
border between the two (`Lock.line_grant`).  After each of these the first of those who wait cannot
be let in (`Lock.Saturated`).

Given who keeps a lock and who asks for it, the lock should stand their line, each of them in it
once (`InLine`).  It still does when somebody asks for it, gives it back or keeps it.
-/
import Folio.Proofs.Manager.Protocol
import Folio.Host.Lock
import Mathlib.Data.List.Nodup

namespace Folio

/-! ## 1. What calls hold and what they ask for -/

/-- A call begins without a lock. -/
theorem Stage.holds_of_entry {op : ManagerOp} {q : Stage} (begins : entry op q) : q.holds = [] := by
  cases op with
  | «open» path name hint =>
    obtain ⟨widget, model, rfl⟩ := begins
    rfl
  | create path name hint =>
    obtain ⟨widget, model, rfl⟩ := begins
    rfl
  | find path name =>
    obtain ⟨widget, model, rfl⟩ := begins
    rfl
  | reveal path name hint =>
    rcases begins with ⟨widget, model, rfl⟩ | rfl <;> rfl
  | _ =>
    obtain rfl := begins
    rfl

/-- **What a call holds at a stage** it held at the stage before, or it has just been given it. -/
theorem Stage.holds_of_goesOn {stage q : Stage} (follows : stage.goesOn q)
    {name : LockName} {access : Access} (kept : (name, access) ∈ q.holds) :
    (name, access) ∈ stage.holds ∨ stage.need = .lock name access := by
  -- what closes contexts, and what follows that, has them for itself if it holds anything
  have closing : ∀ {after : AfterClosing}, q.closesFor after →
      (name, access) = (.contexts, .exclusive) := by
    intro after closes
    cases q <;> first | exact List.mem_singleton.mp kept | (cases closes; done) | cases kept
  have opening : ∀ {otherwise : Option Wanted}, ¬ opens otherwise q := by
    rintro otherwise ⟨w, -, rfl⟩
    cases kept
  cases stage with
  | called op =>
    exact absurd kept (by rw [holds_of_entry follows]; exact List.not_mem_nil)
  | updating update =>
    right
    cases update with
    | closeWidget widget confirmed =>
      obtain rfl := follows
      cases List.mem_singleton.mp kept
      rfl
    | renameFile source target =>
      obtain ⟨models, rfl⟩ := follows
      cases List.mem_singleton.mp kept
      rfl
    | _ =>
      cases closing follows
      rfl
  | finding path widget model otherwise =>
    rcases follows with ⟨c, rfl⟩ | opens
    · cases List.mem_singleton.mp kept
      exact .inr rfl
    · exact absurd opens opening
  | searching c widget otherwise => exact absurd follows opening
  | closing first rest after => exact .inl (closing follows ▸ List.mem_singleton.mpr rfl)
  | unbinding widget confirmed =>
    rcases follows with ⟨-, rfl⟩ | ⟨t, rfl⟩
    · cases kept
    · exact .inl kept
  | confirming widget =>
    obtain rfl := follows
    cases kept
  | moving source target models => exact .inl (closing follows ▸ List.mem_singleton.mpr rfl)
  | _ => cases follows

/-- What a process holds it held before, or it has just been given it. -/
theorem Process.holds_of_resume {s : Session} {p q : Process} {answer : p.need.Answer}
    (goesOn : (p.resume s answer).2 = .inl q) {name : LockName} {access : Access}
    (kept : (name, access) ∈ q.holds) :
    (name, access) ∈ p.holds ∨ p.need = .lock name access := by
  cases q with
  | manager stage =>
    obtain ⟨before, rfl⟩ := manager_of_resume goesOn
    exact Stage.holds_of_goesOn (Stage.goesOn_of_resume (resume_manager_inl.mp goesOn)) kept
  | _ => cases kept

/-- **No process asks for a lock that it holds.** -/
theorem Process.not_mem_holds_of_need (p : Process) {name : LockName} {access : Access}
    (need : p.need = .lock name access) (a : Access) : (name, a) ∉ p.holds := by
  cases p with
  | manager stage =>
    cases name with
    | contexts =>
      rw [holds, Stage.holds_of_need_contexts need]
      exact List.not_mem_nil
    | bindings => exact stage.bindings_not_mem_holds a
  | _ => exact List.not_mem_nil

/-- What the host calls begins without a lock, and asks for none at once. -/
theorem Process.free_of_isCall (p : Process) (call : p.isCall = true) :
    p.holds = [] ∧ ∀ name access, p.need ≠ .lock name access := by
  cases p with
  | operation c op => exact ⟨rfl, fun _ _ => nofun⟩
  | manager stage =>
    cases stage with
    | called op => exact ⟨rfl, fun _ _ => nofun⟩
    | _ => cases call
  | awaitReady c => exact ⟨rfl, fun _ _ => nofun⟩
  | pause millis => exact ⟨rfl, fun _ _ => nofun⟩
  | _ => cases call

namespace Host

/-! ## 2. The line of a lock -/

namespace Lock

/-- **The line**: who holds the lock, and behind them who waits for it. -/
def line (l : Lock) : List (Nat × Access) := l.holders ++ l.queue

/-- **Nobody waits who could be let in**: the first one who waits cannot. -/
def Saturated (l : Lock) : Prop := ∀ first rest, l.queue = first :: rest →
  admits l.holders first.2 = false

/-- Granting a lock lets those in who stand at the border, and nobody leaves the line. -/
theorem line_grant : ∀ queue holders, (grant holders queue).line = holders ++ queue
  | [], holders => rfl
  | (id, access) :: rest, holders => by
    unfold grant
    split
    · rw [line_grant rest, List.append_assoc]
      rfl
    · rfl

/-- A lock is granted until the next one cannot be let in. -/
theorem saturated_grant : ∀ queue holders, (grant holders queue).Saturated
  | [], holders => fun first rest waits => nomatch waits
  | (id, access) :: rest, holders => by
    unfold grant
    split
    · exact saturated_grant rest _
    · next shut =>
      intro first others waits
      cases waits
      exact (Bool.not_eq_true _).mp shut

theorem line_request (l : Lock) (id : Nat) (access : Access) :
    (l.request id access).line = l.line ++ [(id, access)] := by
  rw [request, line_grant, line, List.append_assoc]

/-- Whoever gives the lock back leaves the line. -/
theorem line_release {l : Lock} {id : Nat} (holds : ∀ e ∈ l.queue, e.1 ≠ id) :
    (l.release id).line = l.line.filter (·.1 != id) := by
  have waiting : l.queue.filter (·.1 != id) = l.queue :=
    List.filter_eq_self.mpr fun e he => bne_iff_ne.mpr (holds e he)
  rw [release, line_grant, line, List.filter_append, waiting]

/-- If nobody holds a lock, nobody waits for it. -/
theorem Saturated.queue_eq_nil {l : Lock} (h : l.Saturated) (free : l.holders = []) :
    l.queue = [] := by
  cases waits : l.queue with
  | nil => rfl
  | cons first rest =>
    have shut := h first rest waits
    rw [free] at shut
    cases access : first.2 <;> rw [access] at shut <;> cases shut

theorem isHeldBy_iff {l : Lock} {id : Nat} :
    l.isHeldBy id = true ↔ ∃ access, (id, access) ∈ l.holders := by
  simp [isHeldBy]

end Lock

/-- **A lock stands the line of those who keep it and of those who ask for it.**  Each of them
stands there once, whoever keeps it holds it, and it is granted as far as possible. -/
structure InLine (keeps asks : Nat → Access → Prop) (l : Lock) : Prop where
  nodup : (l.line.map (·.1)).Nodup
  stands : ∀ id access, (id, access) ∈ l.line ↔ keeps id access ∨ asks id access
  held : ∀ id access, keeps id access → (id, access) ∈ l.holders
  saturated : l.Saturated

namespace InLine

variable {keeps asks keeps' asks' : Nat → Access → Prop} {l : Lock} {id : Nat} {access : Access}

theorem congr (h : InLine keeps asks l) (hk : ∀ id access, keeps' id access ↔ keeps id access)
    (ha : ∀ id access, asks' id access ↔ asks id access) : InLine keeps' asks' l where
  nodup := h.nodup
  stands id access := by rw [h.stands, hk, ha]
  held id access kept := h.held id access ((hk id access).mp kept)
  saturated := h.saturated

/-- Nobody stands in line for two kinds of access. -/
theorem access_unique (h : InLine keeps asks l) {access' : Access} (first : (id, access) ∈ l.line)
    (second : (id, access') ∈ l.line) : access = access' :=
  congrArg Prod.snd (List.inj_on_of_nodup_map h.nodup first second rfl)

/-- Whoever holds a lock does not wait for it. -/
theorem not_mem_queue (h : InLine keeps asks l) (holds : (id, access) ∈ l.holders) :
    ∀ e ∈ l.queue, e.1 ≠ id := by
  have apart := h.nodup
  rw [Lock.line, List.map_append, List.nodup_append] at apart
  intro e he same
  exact apart.2.2 id (List.mem_map_of_mem holds) e.1 (List.mem_map_of_mem he) same.symm

/-- **Somebody asks for a lock** who has nothing to do with it. -/
theorem request (h : InLine keeps asks l) (id : Nat) (access : Access)
    (stranger : ∀ a, ¬ keeps id a ∧ ¬ asks id a) :
    InLine keeps (fun i a => asks i a ∨ i = id ∧ a = access) (l.request id access) where
  nodup := by
    rw [Lock.line_request, List.map_append, List.nodup_append]
    refine ⟨h.nodup, List.nodup_singleton _, fun i hi j hj => ?_⟩
    obtain ⟨⟨i, a⟩, stands, rfl⟩ := List.mem_map.mp hi
    obtain rfl : j = id := List.mem_singleton.mp hj
    rintro rfl
    rcases (h.stands _ _).mp stands with kept | asked
    · exact (stranger a).1 kept
    · exact (stranger a).2 asked
  stands i a := by
    rw [Lock.line_request, List.mem_append, h.stands, List.mem_singleton, Prod.mk.injEq, or_assoc]
  held i a kept := Lock.mem_holders_grant _ _ (h.held i a kept)
  saturated := Lock.saturated_grant _ _

/-- **Somebody gives a lock back**, or has nothing to do with it. -/
theorem release (h : InLine keeps asks l) (id : Nat) (holds : ∀ e ∈ l.queue, e.1 ≠ id) :
    InLine (fun i a => i ≠ id ∧ keeps i a) (fun i a => i ≠ id ∧ asks i a) (l.release id) where
  nodup := by
    rw [Lock.line_release holds]
    exact h.nodup.sublist (List.filter_sublist.map _)
  stands i a := by
    rw [Lock.line_release holds, List.mem_filter, h.stands, bne_iff_ne]
    constructor
    · rintro ⟨kept | asked, other⟩
      · exact .inl ⟨other, kept⟩
      · exact .inr ⟨other, asked⟩
    · rintro (⟨other, kept⟩ | ⟨other, asked⟩)
      · exact ⟨.inl kept, other⟩
      · exact ⟨.inr asked, other⟩
  held i a kept := by
    refine Lock.mem_holders_grant _ _ (List.mem_filter.mpr ⟨h.held i a kept.2, ?_⟩)
    exact bne_iff_ne.mpr kept.1
  saturated := Lock.saturated_grant _ _

/-- **Somebody who holds a lock keeps it** from now on. -/
theorem keep (h : InLine keeps asks l) (holds : (id, access) ∈ l.holders) :
    InLine (fun i a => i ≠ id ∧ keeps i a ∨ i = id ∧ a = access) (fun i a => i ≠ id ∧ asks i a)
      l where
  nodup := h.nodup
  stands i a := by
    have here : (id, access) ∈ l.line := List.mem_append_left _ holds
    by_cases same : i = id
    · subst same
      constructor
      · intro stands
        exact .inl (.inr ⟨rfl, h.access_unique stands here⟩)
      · rintro ((⟨other, -⟩ | ⟨-, rfl⟩) | ⟨other, -⟩)
        · exact absurd rfl other
        · exact here
        · exact absurd rfl other
    · rw [h.stands]
      simp [same]
  held i a := by
    rintro (⟨-, kept⟩ | ⟨rfl, rfl⟩)
    · exact h.held i a kept
    · exact holds
  saturated := h.saturated

end InLine

end Host

end Folio
