/-
# The books of a session with a store

What the books of the manager say at any moment of a run: the contexts in use were made, with their
coordinators; a call that still has contexts to close has none of those that are in use; and what is
in use is live, if the host closes no context by itself.  The host may dispose widgets by itself all
the while, of which the twin of the session knows nothing.
-/
import Folio.Proofs.Manager.Disposal
import Folio.Proofs.Manager.Live
import Folio.Proofs.Traffic.Basic

namespace Folio

/-- The host closes a context by itself. -/
def Deed.closesContext : Deed → Bool
  | .disposeContext _ => true
  | _ => false

/-- **A twin keeps the books, and what is in use is live.** -/
def Session.TwinLive (s : Session) (owner : Option Stage) : Prop :=
  Session.TwinBooks [] s owner ∧ s.Live

namespace Ensemble

/-- **What is in use stays live**, whichever widgets the host disposes. -/
theorem upheld_twinLive :
    Upheld (fun d => d.closesContext = false) (fun _ => True) Session.TwinLive where
  background _ := trivial
  continues _ _ _ _ _ _ := trivial
  started s owner inv := ⟨(upheld_twinBooks []).started s owner inv.1, inv.2⟩
  deed s owner d harmless inv := by
    refine ⟨(upheld_twinBooks []).deed s owner d trivial inv.1, ?_⟩
    obtain ⟨⟨_, ⟨widgets, -, rfl⟩, books⟩, live⟩ := inv
    cases d with
    | disposeWidget w => cases w <;> exact live.of_contexts (List.Sublist.refl _) rfl
    | disposeContext c => cases harmless
    | _ =>
      refine live.deed (fun t ht => ?_) _ rfl
      have made := books.1.kept.roster.made t (List.mem_append_left _ ht)
      exact ⟨made.context, made.coordinator, made.owner⟩
  bystander s owner p answer fits bystander inv :=
    ⟨(upheld_twinBooks []).bystander s owner p answer fits bystander inv.1,
      inv.2.process p answer bystander⟩
  owner s stage answer alters inv := by
    refine ⟨(upheld_twinBooks []).owner s stage answer alters inv.1, ?_⟩
    obtain ⟨⟨u, twin, books⟩, live⟩ := inv
    have steps := (twin.stage stage answer alters).session
    obtain ⟨widgets, -, rfl⟩ := twin
    have there : (s.withWidgets widgets).Live := live
    have after := there.stage stage answer alters books.1
    obtain ⟨others, -, same⟩ := steps
    rw [same] at after
    exact after

end Ensemble

namespace Traffic

variable (config : Settings) (store : MemoryStore) (moves : List Move)

/-- The books of the twin, at any moment of a run. -/
theorem twinBooks_run :
    Ensemble.Orderly (fun _ => True) (Session.TwinBooks [])
      ((start (.create config) store).run moves).ensemble :=
  orderly_run (x := start (.create config) store) (Ensemble.upheld_twinBooks [])
    (Ensemble.orderly_twinBooks config) moves fun m _ => by cases m <;> trivial

/-- **Every context in use has a coordinator that was made**, in every run. -/
theorem made_of_tracked {t : Tracked}
    (h : t ∈ ((start (.create config) store).run moves).session.manager.tracked) :
    ((start (.create config) store).run moves).session.Made t := by
  obtain ⟨-, -, _, ⟨widgets, -, rfl⟩, books, -⟩ := twinBooks_run config store moves
  have made := books.kept.roster.made t (List.mem_append_left _ h)
  exact ⟨made.context, made.coordinator, made.owner⟩

/-- **The roster while a call has the contexts**, with what the call has in hand. -/
theorem roster_of_owner {t : Errand}
    (there : t ∈ ((start (.create config) store).run moves).errands) {stage : Stage}
    (conducts : t.process = .manager stage) (owns : stage.owns = true) :
    let s := ((start (.create config) store).run moves).session
    s.Roster stage.leaving (s.shown stage.arriving) := by
  intro s
  obtain ⟨-, alone, inv⟩ := twinBooks_run config store moves
  -- the call is the owner, so the books are those of its stage
  have owner :
      (Ensemble.owners ((start (.create config) store).run moves).ensemble.processes).head? =
        some stage := by
    have listed : stage ∈
        Ensemble.owners ((start (.create config) store).run moves).ensemble.processes := by
      refine List.mem_filterMap.mpr ⟨t.process, List.mem_map_of_mem there, ?_⟩
      rw [conducts, Process.owned?, Stage.owned?, if_pos owns]
    obtain ⟨o, hl⟩ := List.length_eq_one_iff.mp
      (Nat.le_antisymm alone (List.length_pos_of_mem listed))
    rw [hl] at listed ⊢
    rw [List.mem_singleton.mp listed]
    rfl
  rw [owner] at inv
  obtain ⟨_, ⟨widgets, -, rfl⟩, books, -⟩ := inv
  have roster := books.kept.roster
  refine ⟨fun u hu => ?_, roster.nodup, roster.bound, roster.isShown⟩
  have made := roster.made u hu
  exact ⟨made.context, made.coordinator, made.owner⟩

/-- **What is still to be closed** was made, and is not in use. -/
theorem apart_of_closing {t : Errand}
    (there : t ∈ ((start (.create config) store).run moves).errands) {first : Tracked}
    {rest : List Tracked} {after : AfterClosing}
    (closes : t.process = .manager (.closing first rest after)) :
    let s := ((start (.create config) store).run moves).session
    s.Made first ∧ ∀ u ∈ s.manager.tracked, u.context ≠ first.context := by
  intro s
  have roster := roster_of_owner config store moves there closes rfl
  refine ⟨roster.made first (List.mem_append_right _ List.mem_cons_self), fun u hu => ?_⟩
  have nodup := roster.nodup
  rw [List.map_append] at nodup
  exact (List.nodup_append.mp nodup).2.2 u.context (List.mem_map_of_mem hu) first.context
    List.mem_cons_self

/-- **What is in use is live**, in every run in which the host closes no context. -/
theorem live_run
    (harmless : ∀ m ∈ moves, Allowed (fun d => d.closesContext = false) (fun _ => True) m) :
    ((start (.create config) store).run moves).session.Live :=
  (orderly_run (x := start (.create config) store) Ensemble.upheld_twinLive
    ⟨(Ensemble.orderly_twinBooks config).fits, (Ensemble.orderly_twinBooks config).alone,
      (Ensemble.orderly_twinBooks config).inv, fun _ ht => absurd ht List.not_mem_nil⟩ moves
    harmless).inv.2

end Traffic

end Folio
