/-
# What has left does not come back

A context has left when it is dead, is no longer in use, and no widget in use shows it
(`Session.Left`).  The first of these lasts because nothing comes back to life.  The other two last
because a step takes into use only what is new, and binds a widget only to a context in use: the
books say so of the call that is about to bind it.

So what has left has left for good, whatever the host and all processes do (`Traffic.left_step`),
and so has a widget that is disposed (`Traffic.gone_step`).
-/
import Folio.Proofs.Manager.Relocation
import Folio.Proofs.Session.FirstLoads

namespace Folio

/-! ## 1. What a step binds -/

/-- What a call makes when all is closed binds no widget yet. -/
theorem AfterClosing.Makes.bindings {s u : Session} {after : AfterClosing} (h : after.Makes s u) :
    u.manager.bindings = s.manager.bindings := by
  cases h with
  | follows => rw [Manager.manager_followAll]
  | _ => rfl

/-- To take out a widget binds none. -/
theorem Manager.bindings_unbind (s : Session) (w : WidgetId) (confirmed : Bool) :
    (unbind s w confirmed).1.manager.bindings ⊆ s.manager.bindings := by
  have taken : (Session.Sound.taken s w).manager.bindings ⊆ s.manager.bindings := by
    rw [Session.Sound.bindings_taken]
    exact List.eraseP_subset
  unfold unbind
  split
  · exact List.Subset.refl _
  · simp only
    split
    · exact List.Subset.refl _
    · split
      · exact taken
      · split <;> exact taken

/-- To switch or to tune the coordinators in use leaves alone what the manager keeps. -/
theorem Manager.manager_switchAutosave (enabled : Bool) (s : Session) (t : Tracked) :
    (switchAutosave enabled s t).manager = s.manager := by
  unfold switchAutosave
  split
  · rfl
  · split
    · exact Session.manager_startCoordinator s t.coordinator
    · rfl

/-- **A step of a call binds no widget** but the one that it is at to bind. -/
theorem Stage.bound_of_resume {s : Session} {stage : Stage} {answer : stage.need.Answer}
    {b : Binding} (hb : b ∈ (stage.resume s answer).1.manager.bindings) :
    b ∈ s.manager.bindings ∨ stage = .binding b.widget b.context := by
  by_cases unbinds : ∃ w confirmed, stage = .unbinding w confirmed
  · obtain ⟨w, confirmed, rfl⟩ := unbinds
    exact .inl (Manager.bindings_unbind s w confirmed hb)
  have makes := stage.makes s answer
  generalize (stage.resume s answer).1 = t at makes hb
  have each {f : Session → Tracked → Session} (same : ∀ s x, (f s x).manager = s.manager) :
      (s.manager.tracked.foldl f s).manager = s.manager :=
    Session.foldl_related (R := fun s t => t.manager = s.manager) (fun _ => rfl)
      (fun h h' => h'.trans h) same s.manager.tracked s
  have retired (x : Tracked) {u : Session}
      (same : u.manager.bindings = (s.retireContext x).manager.bindings)
      (there : b ∈ u.manager.bindings) : b ∈ s.manager.bindings := by
    rw [same, Session.manager_retireContext] at there
    exact List.mem_of_mem_filter there
  cases makes with
  | nothing | setsAutosave | setsInterval | takes => exact .inl hb
  | @switches enabled =>
    rw [each (Manager.manager_switchAutosave enabled)] at hb
    exact .inl hb
  | @tunes interval =>
    have same : ∀ (s : Session) (x : Tracked),
        (s.setCoordinatorInterval x.coordinator interval).manager = s.manager := fun _ _ => rfl
    rw [each same] at hb
    exact .inl hb
  | retires => exact .inl (retired _ rfl hb)
  | ends makes => exact .inl (makes.bindings ▸ hb)
  | retiresLast makes => exact .inl (retired _ makes.bindings hb)
  | binds =>
    rcases List.mem_append.mp hb with old | new
    · exact .inl old
    · obtain rfl := List.mem_singleton.mp new
      exact .inr rfl
  | unbinds | unbindsLast => exact absurd ⟨_, _, rfl⟩ unbinds
  | @clears last => cases last <;> exact absurd hb List.not_mem_nil

namespace Session

/-! ## 2. What has left -/

/-- **A context has left**: it is dead, not in use, and no widget in use shows it. -/
structure Left (s : Session) (t : Tracked) : Prop where
  dead : s.Dead t
  unused : ∀ u ∈ s.manager.tracked, u.context ≠ t.context
  unshown : ∀ b ∈ s.manager.bindings, b.context ≠ t.context

namespace Left

variable {s u : Session} {t : Tracked}

/-- What advances a session and leaves alone what the manager keeps. -/
theorem of_manager (left : s.Left t) (advances : s.Advances u) (same : u.manager = s.manager) :
    u.Left t :=
  ⟨left.dead.advances advances, same ▸ left.unused, same ▸ left.unshown⟩

/-- **However a process goes on**, what has left does not come back, if a widget is bound only to a
context in use. -/
theorem process (left : s.Left t) (p : Process) (answer : p.need.Answer)
    (binds : ∀ w c, p = .manager (.binding w c) → ∃ v ∈ s.manager.tracked, v.context = c) :
    (p.resume s answer).1.Left t where
  dead := left.dead.advances (.process s p answer)
  unused v hv := by
    cases Bears.process s p answer with
    | nothing rested => exact left.unused v (rested.tracked hv)
    | one tracked =>
      rcases tracked v hv with old | rfl
      · exact left.unused v old
      · exact Nat.ne_of_gt left.dead.made
  unshown b hb := by
    by_cases conducts : ∃ stage, p = .manager stage
    · obtain ⟨stage, rfl⟩ := conducts
      rw [Ensemble.session_manager] at hb
      rcases Stage.bound_of_resume hb with old | rfl
      · exact left.unshown b old
      · obtain ⟨v, hv, same⟩ := binds _ _ rfl
        exact same ▸ left.unused v hv
    · rw [Process.manager_resume s p answer (not_exists.mp conducts)] at hb
      exact left.unshown b hb

/-- When another context is closed. -/
theorem retireContext (left : s.Left t) (x : Tracked) : (s.retireContext x).Left t where
  dead := left.dead.advances (.retireContext s x)
  unused := by
    rw [manager_retireContext]
    exact left.unused
  unshown b hb := by
    rw [manager_retireContext] at hb
    exact left.unshown b (List.mem_of_mem_filter hb)

end Left

theorem Gone.retireContext {s : Session} {w : WidgetId} (gone : s.Gone w) (x : Tracked) :
    (s.retireContext x).Gone w :=
  (Edits.retireContext s x).keeps (fun edit gone => edit.gone gone) gone

/-- **A context that is closed has left**, if it was not in use any more. -/
theorem left_retireContext {s : Session} {t : Tracked} (made : s.Made t)
    (unused : ∀ u ∈ s.manager.tracked, u.context ≠ t.context) : (s.retireContext t).Left t where
  dead := dead_retireContext made
  unused := by
    rw [manager_retireContext]
    exact unused
  unshown b hb := by
    rw [manager_retireContext] at hb
    exact bne_iff_ne.mp (List.mem_filter.mp hb).2

/-- And the widgets that have shown it are disposed. -/
theorem gone_retireContext {s : Session} {t : Tracked} {b : Binding}
    (found : ∃ x, s.widget? b.widget = some x) (hb : b ∈ s.manager.bindings)
    (shows : b.context = t.context) : (s.retireContext t).Gone b.widget := by
  obtain ⟨x, hx⟩ := found
  refine ⟨x.retired, ?_, rfl⟩
  rw [widget?_retireContext, if_pos, hx]
  · rfl
  · exact List.mem_map_of_mem (List.mem_filter.mpr ⟨hb, beq_iff_eq.mpr shows⟩)

end Session

/-! ## 3. Runs -/

namespace Traffic

variable (config : Settings) (store : MemoryStore) (moves : List Move)

/-- **What has left has left for good.** -/
theorem left_step {t : Tracked} (left : ((start (.create config) store).run moves).session.Left t)
    (m : Move) : (((start (.create config) store).run moves).step m).session.Left t := by
  obtain ⟨e, does⟩ := ((start (.create config) store).run moves).step_does m
  generalize ((start (.create config) store).run moves).step m = y at does ⊢
  cases does with
  | deed d =>
    exact (left.of_manager (.deed _ d) (Deed.manager_apply _ d)).of_manager (.of_eq rfl rfl) rfl
  | @goes i oracle before after v answer split =>
    have next := left.process v.process answer fun w c binds => by
      have there := split ▸ List.mem_append_right before List.mem_cons_self
      have roster := roster_of_owner config store moves there binds rfl
      obtain ⟨u, hu, same⟩ :=
        List.mem_map.mp (roster.bound ⟨w, c⟩ (List.mem_append_right _ (List.mem_singleton_self _)))
      exact ⟨u, (List.mem_append.mp hu).resolve_right List.not_mem_nil, same⟩
    exact next.of_manager (.of_eq rfl rfl) rfl
  | _ => exact left

/-- **A widget that is disposed stays so**, whatever happens. -/
theorem gone_step (x : Traffic) {w : WidgetId} (gone : x.session.Gone w) (m : Move) :
    (x.step m).session.Gone w := by
  obtain ⟨e, does⟩ := x.step_does m
  generalize x.step m = y at does ⊢
  cases does with
  | deed d => exact (Deed.gone_apply gone d).of_widgets rfl
  | goes => exact (Process.gone_resume gone _ _).of_widgets rfl
  | _ => exact gone

end Traffic

end Folio
