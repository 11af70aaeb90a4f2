/-
# The roster of contexts

The manager keeps two lists under two locks: the contexts in use and the widgets in use.  A call
changes both, and is suspended between the two changes.  So while a call is in progress the lists
do not agree; what they agree with is the lists and what the call has in hand: the contexts that it
has taken out of use and still has to close (`Stage.leaving`), and the widget that it has made and
still has to bind (`Stage.arriving`).

`Session.Roster` is what is to hold of the contexts, for any contexts that leave and any widgets
that are shown.  Here is what every operation on the two lists does to it.
-/
import Folio.Proofs.Ensemble.Advance

namespace Folio

/-! ## 1. What a call has in hand -/

/-- The contexts that a call has taken out of use and has yet to close. -/
def Stage.leaving : Stage → List Tracked
  | .closing t rest _ => t :: rest
  | _ => []

/-- The widgets that a call has made and has yet to bind. -/
def Stage.arriving : Stage → List Binding
  | .binding w c => [⟨w, c⟩]
  | _ => []

/-- The call is about to drop all bindings. -/
def Stage.clears : Stage → Bool
  | .closing _ _ (.clear _) => true
  | .clearing _ => true
  | _ => false

namespace Session

/-- What is found first is what is erased first. -/
theorem perm_eraseP_of_find? {α : Type} {p : α → Bool} {a : α} :
    ∀ {l : List α}, l.find? p = some a → l.Perm (a :: l.eraseP p)
  | [], h => by cases h
  | b :: l, h => by
    by_cases hb : p b = true
    · rw [List.find?_cons_of_pos hb, Option.some.injEq] at h
      rw [List.eraseP_cons_of_pos hb, h]
    · rw [List.find?_cons_of_neg hb] at h
      rw [List.eraseP_cons_of_neg hb]
      exact ((perm_eraseP_of_find? h).cons b).trans (List.Perm.swap a b _)

/-! ## 2. The contexts -/

/-- The context of the entry was made, and so was its coordinator. -/
structure Made (s : Session) (t : Tracked) : Prop where
  context : t.context < s.contexts.length
  coordinator : t.coordinator < s.coordinators.length
  owner : (s.coordinator t.coordinator).context = t.context

/-- **The roster of contexts**, with those that leave: no context is there twice, every widget in
use shows one of them, and one that does not leave is shown. -/
structure Roster (s : Session) (leaving : List Tracked) (shown : List Binding) : Prop where
  made : ∀ t ∈ s.manager.tracked ++ leaving, s.Made t
  nodup : ((s.manager.tracked ++ leaving).map (·.context)).Nodup
  bound : ∀ b ∈ shown, b.context ∈ (s.manager.tracked ++ leaving).map (·.context)
  isShown : ∀ t ∈ s.manager.tracked, t.context ∈ shown.map (·.context)

theorem Made.advances {s u : Session} {t : Tracked} (made : s.Made t) (h : s.Advances u) :
    u.Made t where
  context := Nat.lt_of_lt_of_le made.context h.contexts_length
  coordinator := Nat.lt_of_lt_of_le made.coordinator h.coordinators_length
  owner := (h.coordinator _ made.coordinator).trans made.owner

namespace Roster

variable {s : Session} {leaving : List Tracked} {shown : List Binding}

/-- A session that advances keeps the roster, if the contexts in use stay so. -/
theorem advances (roster : s.Roster leaving shown) {t : Session} (h : s.Advances t)
    (tracked : t.manager.tracked = s.manager.tracked) : t.Roster leaving shown where
  made x hx := (roster.made x (tracked ▸ hx)).advances h
  nodup := tracked ▸ roster.nodup
  bound := tracked ▸ roster.bound
  isShown := tracked ▸ roster.isShown

/-- **Contexts are taken out of use**; they leave. -/
theorem setTracked (roster : s.Roster [] shown) {keep closing : List Tracked}
    (h : (keep ++ closing).Perm s.manager.tracked) : (s.setTracked keep).Roster closing shown := by
  obtain ⟨made, nodup, bound, isShown⟩ := roster
  rw [List.append_nil] at made nodup bound
  have contexts : ((keep ++ closing).map (·.context)).Perm (s.manager.tracked.map (·.context)) :=
    h.map _
  refine ⟨?_, ?_, ?_, ?_⟩
  · intro t ht
    exact (made t (h.mem_iff.mp ht)).advances (.setTracked s keep)
  · exact contexts.nodup_iff.mpr nodup
  · exact fun b hb => contexts.mem_iff.mpr (bound b hb)
  · exact fun t ht => isShown t (h.mem_iff.mp (List.mem_append_left closing ht))

/-- **A new context comes into use**, with a widget that shows it. -/
theorem newTracked (roster : s.Roster [] shown) (path : String) (model : ModelFactory)
    (isNew : Bool) (w : WidgetId) :
    ((s.newTracked path model isNew).1.setTracked
      (s.manager.tracked ++ [⟨s.contexts.length, s.coordinators.length⟩])).Roster []
        (shown ++ [⟨w, s.contexts.length⟩]) := by
  have advances := (Advances.newTracked s path model isNew).trans (.setTracked _
    (s.manager.tracked ++ [⟨s.contexts.length, s.coordinators.length⟩]))
  have made : ∀ t ∈ s.manager.tracked, s.Made t := fun t ht =>
    roster.made t (List.mem_append_left _ ht)
  refine ⟨?_, ?_, ?_, ?_⟩
  · intro t ht
    rw [List.append_nil] at ht
    rcases List.mem_append.mp ht with ht | ht
    · exact (made t ht).advances advances
    · rw [List.mem_singleton.mp ht]
      refine ⟨?_, ?_, congrArg Coordinator.context (coordinator_newTracked s path model isNew)⟩
      · simp [Session.newTracked, addContext, addCoordinator, start, Session.setTracked]
      · simp [Session.newTracked, addContext, addCoordinator, start, Session.setTracked]
  · have old : (s.manager.tracked.map (·.context)).Nodup := by
      simpa using roster.nodup
    simp only [Session.setTracked, List.append_nil, List.map_append, List.map_cons, List.map_nil]
    refine List.nodup_append.mpr ⟨old, List.pairwise_singleton _ _, ?_⟩
    intro c hc d hd same
    obtain ⟨t, ht, rfl⟩ := List.mem_map.mp hc
    exact absurd (same.trans (List.mem_singleton.mp hd)) (Nat.ne_of_lt (made t ht).context)
  · intro b hb
    simp only [Session.setTracked, List.append_nil, List.map_append, List.mem_append]
    rcases List.mem_append.mp hb with hb | hb
    · have before := roster.bound b hb
      rw [List.append_nil] at before
      exact Or.inl before
    · rw [List.mem_singleton.mp hb]
      exact Or.inr (List.mem_singleton_self _)
  · intro t ht
    rw [List.map_append, List.mem_append]
    rcases List.mem_append.mp ht with ht | ht
    · exact Or.inl (roster.isShown t ht)
    · rw [List.mem_singleton.mp ht]
      exact Or.inr (List.mem_singleton_self _)

/-- A widget comes into use for a context that is in use already. -/
theorem bind (roster : s.Roster [] shown) (w : WidgetId) {t : Tracked}
    (ht : t ∈ s.manager.tracked) : s.Roster [] (shown ++ [⟨w, t.context⟩]) := by
  refine ⟨roster.made, roster.nodup, ?_, ?_⟩
  · intro b hb
    rcases List.mem_append.mp hb with hb | hb
    · exact roster.bound b hb
    · rw [List.mem_singleton.mp hb, List.append_nil]
      exact List.mem_map_of_mem ht
  · intro u hu
    rw [List.map_append, List.mem_append]
    exact Or.inl (roster.isShown u hu)

/-- A widget goes out of use, if what it shows is shown by another one or is not in use. -/
theorem unbind (roster : s.Roster leaving shown) {b : Binding} {rest : List Binding}
    (perm : shown.Perm (b :: rest))
    (covered : ∀ t ∈ s.manager.tracked, t.context = b.context →
      t.context ∈ rest.map (·.context)) : s.Roster leaving rest where
  made := roster.made
  nodup := roster.nodup
  bound b' hb' := roster.bound b' (perm.mem_iff.mpr (List.mem_cons_of_mem b hb'))
  isShown t ht := by
    obtain ⟨b', hb', same⟩ := List.mem_map.mp (roster.isShown t ht)
    rcases List.mem_cons.mp (perm.mem_iff.mp hb') with rfl | hb'
    · exact covered t ht same.symm
    · exact List.mem_map.mpr ⟨b', hb', same⟩

/-- **A context that leaves is closed**: the widgets that show it are no longer in use. -/
theorem close {t : Tracked} {rest : List Tracked} (roster : s.Roster (t :: rest) shown) :
    s.Roster rest (shown.filter (·.context != t.context)) := by
  have perm : (s.manager.tracked ++ t :: rest).Perm (t :: (s.manager.tracked ++ rest)) :=
    List.perm_middle
  have contexts := perm.map (·.context)
  obtain ⟨gone, nodup⟩ := List.nodup_cons.mp (contexts.nodup_iff.mp roster.nodup)
  refine ⟨?_, nodup, ?_, ?_⟩
  · exact fun u hu => roster.made u (perm.mem_iff.mpr (List.mem_cons_of_mem t hu))
  · intro b hb
    obtain ⟨hb, other⟩ := List.mem_filter.mp hb
    rcases List.mem_cons.mp (contexts.mem_iff.mp (roster.bound b hb)) with same | there
    · rw [same, bne_self_eq_false] at other
      exact absurd other Bool.false_ne_true
    · exact there
  · intro u hu
    obtain ⟨b, hb, same⟩ := List.mem_map.mp (roster.isShown u hu)
    have other : u.context ≠ t.context := by
      intro h
      exact gone (List.mem_map.mpr ⟨u, List.mem_append_left rest hu, h⟩)
    refine List.mem_map.mpr ⟨b, List.mem_filter.mpr ⟨hb, ?_⟩, same⟩
    rw [same]
    exact bne_iff_ne.mpr other

end Roster

end Session

end Folio
