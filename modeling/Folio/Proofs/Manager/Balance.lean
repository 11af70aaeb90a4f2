/-
# The books balance

When no call of the manager is in progress there is nothing in hand, and the list of the contexts
in use and the list of the widgets in use agree with each other (`Session.Balanced`).  Of the
widgets that were ever made, and of the contexts that the manager ever made, none gets lost.

The host may do whatever it wants at any time, but for one thing: it disposes no widget by itself.
-/
import Folio.Proofs.Manager.Books

namespace Folio

namespace Session

/-! ## 1. The invariant of runs -/

/-- **The books are kept**, and these contexts are accounted for. -/
def BooksWith (known : List Tracked) (s : Session) (owner : Option Stage) : Prop :=
  s.Books owner ∧ ∀ t ∈ known, s.Accounted (owner.elim [] Stage.leaving) t

/-- What advances a session and touches neither list nor any widget. -/
theorem BooksWith.advances {known : List Tracked} {s t : Session} {owner : Option Stage}
    (books : BooksWith known s owner) (h : s.Advances t)
    (tracked : t.manager.tracked = s.manager.tracked)
    (bindings : t.manager.bindings = s.manager.bindings) (widgets : t.widgets = s.widgets)
    (lifecycle : t.lifecycle = s.lifecycle) : BooksWith known t owner := by
  obtain ⟨⟨kept, cleared⟩, accounted⟩ := books
  refine ⟨⟨kept.advances h tracked bindings widgets lifecycle, ?_⟩, ?_⟩
  · intro stage hs clears
    rw [tracked]
    exact cleared stage hs clears
  · intro x hx
    refine (accounted x hx).of_advances h fun there => ?_
    rw [Accounted, tracked]
    exact Or.inl there

theorem BooksWith.leavesBooks {known : List Tracked} {s t : Session} {owner : Option Stage}
    (books : BooksWith known s owner) (h : s.LeavesBooks t) : BooksWith known t owner :=
  books.advances h.advances h.tracked h.bindings h.widgets h.lifecycle

end Session

/-- The host disposes a widget by itself. -/
def Deed.disposesWidget : Deed → Bool
  | .disposeWidget _ => true
  | _ => false

/-- The host disposes a widget by itself. -/
def Move.disposesWidget : Move → Bool
  | .deed d => d.disposesWidget
  | _ => false

namespace Ensemble

theorem upheld_books (known : List Tracked) :
    Upheld (fun d => d.disposesWidget = false) (fun _ => True) (Session.BooksWith known) where
  background _ := trivial
  continues _ _ _ _ _ _ := trivial
  started s owner books := books.advances (.of_eq rfl rfl) rfl rfl rfl rfl
  deed s owner d harmless books := by
    cases bystander : d.isBystander with
    | true => exact books.leavesBooks (.deed s d bystander)
    | false =>
      cases d with
      | disposeWidget w => cases harmless
      | newContext path modelFactory contentType kind =>
        exact books.advances (.addContext s _) rfl rfl rfl rfl
      | newCoordinator c interval => exact books.advances (.addCoordinator s _) rfl rfl rfl rfl
      | _ => cases bystander
  bystander s owner p answer _ bystander books := books.leavesBooks (.process s p answer bystander)
  owner s stage answer alters books := by
    have sound := Session.Sound.stage stage answer alters books.1
    exact ⟨sound.books, fun t ht => sound.accounted t (books.2 t ht)⟩

/-- If a step of the owner takes into use every context that it makes, every step does: nobody else
makes one. -/
theorem takesUp_of_owner {fits : Process → Prop} {Inv : Session → Option Stage → Prop}
    {e : Ensemble} (orderly : Orderly fits Inv e)
    (owner : ∀ (stage : Stage) (answer : stage.need.Answer), stage.alters = true →
      Inv e.session stage.owned? → ∀ c, e.session.contexts.length ≤ c →
        c < (stage.resume e.session answer).1.contexts.length →
        ∃ k, ⟨c, k⟩ ∈ (stage.resume e.session answer).1.manager.tracked)
    (i : Nat) (oracle : Oracle) :
    ∀ c, e.session.contexts.length ≤ c → c < (e.go i oracle).session.contexts.length →
      ∃ k, ⟨c, k⟩ ∈ (e.go i oracle).session.manager.tracked := by
  rcases go_cases e i oracle with same | ⟨p, others, perm, free, same⟩
  · rw [same]
    exact fun c hc hc' => absurd hc' (Nat.not_lt.mpr hc)
  · rw [same]
    have front : Orderly fits Inv ⟨e.session, p :: others⟩ := orderly.perm perm.symm
    cases alters : p.alters with
    | false =>
      have leaves := Session.LeavesBooks.process e.session p (oracle p.need) alters
      intro c hc hc'
      have length : (p.resume e.session (oracle p.need)).1.contexts.length =
          e.session.contexts.length := leaves.contexts_length
      exact absurd (length ▸ hc') (Nat.not_lt.mpr hc)
    | true =>
      cases p with
      | manager stage =>
        rw [absorb, session_manager]
        exact owner stage (oracle stage.need) alters (front.alone_of_alters alters free).2
      | _ => cases alters

/-- **A context that a process makes is in use at once.** -/
theorem takesUp_go {e : Ensemble} {known : List Tracked}
    (orderly : Orderly (fun _ => True) (Session.BooksWith known) e) (i : Nat) (oracle : Oracle) :
    ∀ c, e.session.contexts.length ≤ c → c < (e.go i oracle).session.contexts.length →
      ∃ k, ⟨c, k⟩ ∈ (e.go i oracle).session.manager.tracked :=
  takesUp_of_owner orderly
    (fun stage answer alters books => (Session.Sound.stage stage answer alters books.1).takesUp)
    i oracle

end Ensemble

/-! ## 2. Every run -/

/-- **The books balance.** -/
structure Session.Balanced (s : Session) : Prop where
  /-- What is shown is in use. -/
  tracked : ∀ b ∈ s.manager.bindings, ∃ t ∈ s.manager.tracked, t.context = b.context
  /-- What is in use is shown. -/
  isShown : ∀ t ∈ s.manager.tracked, ∃ b ∈ s.manager.bindings, b.context = t.context
  distinct : (s.manager.bindings.map (·.widget)).Nodup
  /-- A bound widget is not disposed, and the host was told of nothing but that it was made. -/
  inUse : ∀ b ∈ s.manager.bindings, s.InUse b.widget
  /-- Every other widget that was ever made is disposed, and the host was told so once. -/
  adopted : ∀ w c hint, .adopted w c hint ∈ s.lifecycle →
    w ∈ s.manager.bindings.map (·.widget) ∨ s.Retired w

/-- The books balance when nothing is in hand. -/
theorem Session.Books.balanced {s : Session} (books : s.Books none) : s.Balanced := by
  obtain ⟨⟨roster, ledger⟩, -⟩ := books
  simp only [shown, Option.elim, List.append_nil] at roster ledger
  refine ⟨?_, ?_, ledger.nodup, ?_, ?_⟩
  · intro b hb
    have bound := roster.bound b hb
    rw [List.append_nil] at bound
    exact List.mem_map.mp bound
  · exact fun t ht => List.mem_map.mp (roster.isShown t ht)
  · exact fun b hb => ledger.inUse b.widget (List.mem_map_of_mem hb)
  · intro w c hint told
    by_cases inUse : w ∈ s.manager.bindings.map (·.widget)
    · exact Or.inl inUse
    · have known : s.history w ≠ [] := history_ne_nil told rfl
      exact Or.inr ((ledger.others w inUse).resolve_left known)

/-- The process is a call of the manager in progress. -/
def Process.isManager : Process → Bool
  | .manager _ => true
  | _ => false

namespace Ensemble

/-- No call of the manager is in progress. -/
def Idle (e : Ensemble) : Prop := ∀ p ∈ e.processes, p.isManager = false

instance (e : Ensemble) : Decidable e.Idle :=
  inferInstanceAs (Decidable (∀ p ∈ e.processes, p.isManager = false))

/-- Where no call is in progress nobody owns the contexts. -/
theorem Idle.owners {e : Ensemble} (idle : e.Idle) : owners e.processes = [] := by
  refine List.filterMap_eq_nil_iff.mpr fun p hp => ?_
  have notManager := idle p hp
  cases p with
  | manager stage => cases notManager
  | _ => rfl

theorem orderly_start (config : Settings) :
    Orderly (fun _ => True) (Session.BooksWith []) (.start config) := by
  refine .start ⟨⟨⟨⟨?_, ?_, ?_, ?_⟩, ?_, ?_, ?_, ?_⟩, ?_⟩, ?_⟩
  · exact fun t ht => absurd ht List.not_mem_nil
  · exact List.nodup_nil
  · exact fun b hb => absurd hb List.not_mem_nil
  · exact fun t ht => absurd ht List.not_mem_nil
  · exact List.nodup_nil
  · exact fun e he => absurd he List.not_mem_nil
  · exact fun w hw => absurd hw List.not_mem_nil
  · exact fun w _ => Or.inl rfl
  · exact fun stage hs => by cases hs
  · exact fun t ht => absurd ht List.not_mem_nil

/-- **The books of the manager balance** after every run in which the host disposes no widget by
itself, whenever no call of the manager is in progress.  And every context that the manager made on
the way, with the coordinator that it made for it, is in use or dead for ever. -/
theorem books_balance (config : Settings) (moves : List Move)
    (harmless : ∀ m ∈ moves, m.disposesWidget = false) (idle : ((start config).run moves).Idle) :
    ((start config).run moves).session.Balanced ∧
      ∀ before i oracle after, moves = before ++ .go i oracle :: after →
        ∀ c, ((start config).run before).session.contexts.length ≤ c →
          c < (((start config).run before).go i oracle).session.contexts.length →
          ∃ k, ⟨c, k⟩ ∈ (((start config).run before).go i oracle).session.manager.tracked ∧
            (⟨c, k⟩ ∈ ((start config).run moves).session.manager.tracked ∨
              ∀ later, (((start config).run moves).run later).session.Dead ⟨c, k⟩) := by
  have allowed : ∀ m ∈ moves, Allowed (fun d => d.disposesWidget = false) (fun _ => True) m := by
    intro m hm
    have ok := harmless m hm
    cases m with
    | deed d => exact ok
    | enter p => trivial
    | go i oracle => trivial
  refine ⟨?_, ?_⟩
  · have orderly := (orderly_start config).run (upheld_books []) moves allowed
    have books := orderly.inv.1
    rw [idle.owners] at books
    exact books.balanced
  · rintro before i oracle after rfl c hc hc'
    have first := (orderly_start config).run (upheld_books []) before fun m hm =>
      allowed m (List.mem_append_left _ hm)
    obtain ⟨k, taken⟩ := takesUp_go first i oracle c hc hc'
    refine ⟨k, taken, ?_⟩
    -- from here on the context is among those accounted for
    have made := first.go (upheld_books []) i oracle
    have known : Orderly (fun _ => True) (Session.BooksWith [⟨c, k⟩])
        (((start config).run before).go i oracle) := by
      refine ⟨made.fits, made.alone, made.inv.1, fun t ht => ?_⟩
      rw [List.mem_singleton.mp ht]
      exact Or.inl (List.mem_append_left _ taken)
    have last := known.run (upheld_books [⟨c, k⟩]) after fun m hm =>
      allowed m (List.mem_append_right _ (List.mem_cons_of_mem _ hm))
    have whole : (start config).run (before ++ .go i oracle :: after) =
        (((start config).run before).go i oracle).run after := by
      rw [run_append]
      rfl
    rw [whole] at idle ⊢
    rcases last.inv.2 ⟨c, k⟩ (List.mem_singleton_self _) with inUse | dead
    · rw [idle.owners] at inUse
      exact Or.inl (by simpa using inUse)
    · exact Or.inr fun later => dead.advances (advances_run later _)

/-- Two files are opened, one of them by two calls side by side; that one is closed, and a document
is created in place of the other. -/
def opensAndCloses : List Move :=
  [.deed (.setRegistry .sample), .call (.open "a" "editor" none), .call (.open "a" "editor" none),
    .call (.open "b" "console" none)] ++ Move.turns 60 ++ [.call (.closeFile "a")] ++
    Move.turns 40 ++ [.call (.create "b" "console" none)] ++ Move.turns 40

/-- One of three contexts and one of four widgets is left. -/
theorem books_balance_opensAndCloses :
    let e := (start {}).run opensAndCloses
    (∀ m ∈ opensAndCloses, m.disposesWidget = false) ∧ e.Idle ∧
      e.session.contexts.length = 3 ∧ e.session.widgets.length = 4 ∧
      e.session.manager.bindings = [⟨.issued 3, 2⟩] ∧ e.session.Balanced :=
  have harmless : ∀ m ∈ opensAndCloses, m.disposesWidget = false := by decide +kernel
  have idle : ((start {}).run opensAndCloses).Idle := by decide +kernel
  ⟨harmless, idle, by decide +kernel, by decide +kernel, by decide +kernel,
    (books_balance {} opensAndCloses harmless idle).1⟩

end Ensemble

end Folio
