/-
# The model factories in use

A call that opens or creates a document looks its model factory up when it begins, and keeps it
while it waits; the context that it makes in the end has the name of that factory.  Nothing else
brings a context into use, and the name of a context never changes.

So what is true of the names of all factories that are ever registered is true of the names of all
contexts in use (`Ensemble.named_run`), however the registrations change while calls are in
progress.
-/
import Folio.Proofs.Manager.Outcomes
import Folio.Proofs.Manager.Protocol

namespace Folio

/-! ## 1. What a step brings into use -/

/-- The model factory of the context that is about to be made, when all is closed. -/
def AfterClosing.builds? : AfterClosing → Option ModelFactory
  | .open _ _ model _ => some model
  | .create _ _ model _ => some model
  | _ => none

/-- The model factory of the context that is about to be made. -/
def ContextUpdate.builds? : ContextUpdate → Option ModelFactory
  | .open _ _ model _ => some model
  | .create _ _ model _ => some model
  | _ => none

/-- **The model factory of the context that a call is about to make**, if it makes one. -/
def Stage.builds? : Stage → Option ModelFactory
  | .updating update => update.builds?
  | .closing _ _ after => after.builds?
  | _ => none

/-- Only calls of the manager bring contexts into use. -/
def Process.builds? : Process → Option ModelFactory
  | .manager stage => stage.builds?
  | _ => none

namespace Session

variable {s t u : Session} {factory? : Option ModelFactory}

/-- **What comes into use was made by the factory**, if there is one. -/
def Builds (s t : Session) (factory? : Option ModelFactory) : Prop :=
  ∀ x ∈ t.manager.tracked, x ∈ s.manager.tracked ∨ x.context < t.contexts.length ∧
    ∃ f ∈ factory?, (t.context x.context).modelFactory = f.name

namespace Builds

theorem of_subset (fewer : t.manager.tracked ⊆ s.manager.tracked) : s.Builds t factory? :=
  fun _ hx => .inl (fewer hx)

theorem of_eq (same : t.manager.tracked = s.manager.tracked) : s.Builds t factory? :=
  of_subset (same ▸ List.Subset.refl _)

theorem after (builds : t.Builds u factory?) (fewer : t.manager.tracked ⊆ s.manager.tracked) :
    s.Builds u factory? := fun x hx => (builds x hx).imp_left (fewer ·)

theorem withTracked (s : Session) (path : String) (model : ModelFactory) (isNew : Bool)
    (widget : WidgetFactory) (c : ContextId) (hint : Option OpenHint) :
    s.Builds ((s.withTracked path model isNew).newWidget widget c hint).1 (some model) := by
  intro x hx
  refine (List.mem_append.mp hx).imp_right fun new => ?_
  have made : (s.withTracked path model isNew).context s.contexts.length =
      { path, modelFactory := model.name, contentType := model.contentType,
        model := model.build } := context_newTracked s path model isNew
  rw [List.mem_singleton.mp new]
  refine ⟨?_, model, rfl, congrArg Context.modelFactory made⟩
  show s.contexts.length < (s.contexts ++ [_]).length
  simp

theorem afterClosing (s : Session) :
    (after : AfterClosing) → s.Builds (Manager.afterClosing s after).1 after.builds?
  | .open path widget model hint => by
    simp only [Manager.afterClosing, Manager.openNow]
    split
    · exact of_eq rfl
    · exact withTracked s path model false widget _ hint
  | .create path widget model hint => withTracked s path model true widget _ hint
  | .follow source target =>
    of_eq (congrArg Manager.tracked (Manager.manager_followAll s source target))
  | .delete _ => of_eq rfl
  | .clear _ => of_eq rfl
  | .finish _ => of_eq rfl

theorem retireEach (s : Session) (closing : List Tracked) (after : AfterClosing) :
    s.Builds (Manager.retireEach s closing after).1 after.builds? := by
  cases closing with
  | nil => exact afterClosing s after
  | cons x rest => exact of_eq rfl

theorem retireWhere (s : Session) (test : Tracked → Bool) (after : AfterClosing) :
    s.Builds (Manager.retireWhere s test after).1 after.builds? := by
  rw [Manager.retireWhere_eq]
  exact (retireEach _ _ after).after List.filter_sublist.subset

theorem unbind (s : Session) (widget : WidgetId) (confirmed : Bool) :
    s.Builds (Manager.unbind s widget confirmed).1 none := by
  have retires (bindings : List Binding) :
      ((s.setBindings bindings).retireWidget widget).manager.tracked = s.manager.tracked := by
    cases widget <;> rfl
  unfold Manager.unbind
  split
  · exact of_eq rfl
  · simp only
    split
    · exact of_eq rfl
    · split
      · exact of_eq (retires _)
      · split
        · exact of_eq (retires _)
        · exact of_subset fun x hx => retires _ ▸ List.mem_of_mem_eraseP hx

/-- **What a call brings into use was made by its own factory.** -/
theorem stage (s : Session) (stage : Stage) (answer : stage.need.Answer)
    (alters : stage.alters = true) : s.Builds (stage.resume s answer).1 stage.builds? := by
  cases stage with
  | updating update =>
    cases update with
    | closeWidget widget confirmed => exact of_eq rfl
    | renameFile source target =>
      simp only [Stage.resume, Manager.update, Manager.beginMove]
      split <;> exact of_eq rfl
    | closeFile path delete => cases delete <;> exact retireWhere s _ _
    | _ => exact retireWhere s _ _
  | closing x rest after =>
    refine (retireEach _ rest after).after ?_
    rw [manager_retireContext]
    exact List.Subset.refl _
  | binding w c => exact of_eq rfl
  | unbinding widget confirmed => exact unbind s widget confirmed
  | clearing last => cases last <;> exact of_eq rfl
  | moving source target models =>
    cases answer with
    | error e => exact of_eq rfl
    | ok m => exact retireWhere s _ _
  | _ => cases alters

/-- **No process brings anything else into use.** -/
theorem process (s : Session) (p : Process) (answer : p.need.Answer) :
    s.Builds (p.resume s answer).1 p.builds? := by
  cases alters : p.alters with
  | false => exact of_eq (LeavesBooks.process s p answer alters).tracked
  | true =>
    cases p with
    | manager st =>
      rw [Ensemble.session_manager]
      exact stage s st answer alters
    | _ => cases alters

end Builds

end Session

/-! ## 2. Where the factory comes from -/

/-- Where there is no factory, all factories are as wanted. -/
theorem ModelFactory.forall_mem_none {P : ModelFactory → Prop} :
    ∀ f ∈ (none : Option ModelFactory), P f :=
  fun f hf => absurd hf (Option.not_mem_none f)

namespace Stage

theorem builds?_of_closesFor {after : AfterClosing} {q : Stage} (closes : q.closesFor after) :
    ∀ f ∈ q.builds?, f ∈ after.builds? := by
  cases q with
  | closing x rest a =>
    obtain rfl : a = after := closes
    exact fun f hf => hf
  | updating update => exact absurd closes id
  | _ => exact ModelFactory.forall_mem_none

/-- **A call keeps its factory**, once it has begun. -/
theorem builds?_of_goesOn {p q : Stage} (next : p.goesOn q) (begun : ∀ op, p ≠ .called op) :
    ∀ f ∈ q.builds?, f ∈ p.builds? := by
  cases p with
  | called op => exact absurd rfl (begun op)
  | updating update =>
    cases update with
    | closeWidget widget confirmed =>
      obtain rfl : q = _ := next
      exact ModelFactory.forall_mem_none
    | closeFile path delete => cases delete <;> exact builds?_of_closesFor next
    | renameFile source target =>
      obtain ⟨models, rfl⟩ := next
      exact ModelFactory.forall_mem_none
    | _ => exact builds?_of_closesFor next
  | finding path widget model otherwise =>
    rcases next with ⟨c, rfl⟩ | ⟨w, -, rfl⟩ <;> exact ModelFactory.forall_mem_none
  | searching c widget otherwise =>
    obtain ⟨w, -, rfl⟩ := next
    exact ModelFactory.forall_mem_none
  | closing x rest after => exact builds?_of_closesFor next
  | unbinding widget confirmed =>
    rcases next with ⟨-, rfl⟩ | ⟨x, rfl⟩ <;> exact ModelFactory.forall_mem_none
  | confirming widget =>
    obtain rfl : q = _ := next
    exact ModelFactory.forall_mem_none
  | moving source target models => exact builds?_of_closesFor next
  | _ => exact absurd next id

end Stage

theorem Registry.mem_models_of_model? {r : Registry} {name : String} {f : ModelFactory}
    (found : r.model? name = some f) : f ∈ r.models :=
  List.mem_map_of_mem (Table.mem_of_get? found)

theorem Manager.mem_models_of_factoriesFor {s : Session} {path name : String}
    {widget : WidgetFactory} {model : ModelFactory}
    (found : factoriesFor s path name = some (widget, model)) : model ∈ s.registry.models := by
  simp only [factoriesFor, Option.bind_eq_bind, Option.bind_eq_some_iff, Option.pure_def,
    Option.some.injEq, Prod.mk.injEq] at found
  obtain ⟨w, -, m, known, -, rfl⟩ := found
  exact Registry.mem_models_of_model? known

/-- **A call begins with a factory that is registered.** -/
theorem Manager.builds?_of_begin {s : Session} {op : ManagerOp} {q : Stage}
    (next : (begin s op).2 = .inl q) : ∀ f ∈ q.builds?, f ∈ s.registry.models := by
  cases op with
  | «open» path name hint =>
    simp only [begin] at next
    split at next
    · next found =>
      cases next
      rintro f ⟨⟩
      exact mem_models_of_factoriesFor found
    · cases next
  | create path name hint =>
    simp only [begin] at next
    split at next
    · next found =>
      cases next
      rintro f ⟨⟩
      exact mem_models_of_factoriesFor found
    · cases next
  | find path name =>
    simp only [begin] at next
    split at next <;> cases next
    exact ModelFactory.forall_mem_none
  | reveal path name hint =>
    simp only [begin] at next
    split at next <;> cases next <;> exact ModelFactory.forall_mem_none
  | _ =>
    cases next
    exact ModelFactory.forall_mem_none

/-- **What a process is about to make** it was about to make before, or it is of a factory that is
registered. -/
theorem Process.builds?_of_resume {s : Session} {p q : Process} {answer : p.need.Answer}
    (next : (p.resume s answer).2 = .inl q) :
    ∀ f ∈ q.builds?, f ∈ p.builds? ∨ f ∈ s.registry.models := by
  cases goesOn next with
  | @conducts stage after given follows =>
    intro f hf
    cases stage with
    | called op =>
      simp only [Stage.resume] at follows
      split at follows
      · cases op <;> cases follows
      · exact .inr (Manager.builds?_of_begin follows f hf)
    | _ => exact .inl (Stage.builds?_of_goesOn (Stage.goesOn_of_resume follows)
        (fun op same => by cases same) f hf)
  | _ => exact ModelFactory.forall_mem_none

/-! ## 3. All runs -/

/-- The registry that the move puts in place of the one before. -/
def Move.registry? : Move → Option Registry
  | .deed (.setRegistry registry) => some registry
  | _ => none

/-- **Whatever the move registers is named so.** -/
def Move.RegistersOnly (P : String → Prop) (m : Move) : Prop :=
  ∀ registry ∈ m.registry?, ∀ f ∈ registry.models, P f.name

instance (P : String → Prop) [DecidablePred P] (m : Move) : Decidable (m.RegistersOnly P) :=
  inferInstanceAs (Decidable (∀ registry ∈ m.registry?, ∀ f ∈ registry.models, P f.name))

namespace Ensemble

variable {P : String → Prop}

/-- **All model factories are named so**: those that are registered, those of which contexts are
about to be made, and those of the contexts in use. -/
structure Named (P : String → Prop) (e : Ensemble) : Prop where
  registered : ∀ f ∈ e.session.registry.models, P f.name
  builds : ∀ p ∈ e.processes, ∀ f ∈ p.builds?, P f.name
  made : ∀ t ∈ e.session.manager.tracked, t.context < e.session.contexts.length
  inUse : ∀ t ∈ e.session.manager.tracked, P (e.session.context t.context).modelFactory

theorem Named.absorb {s : Session} {processes : List Process}
    (named : Named P ⟨s, processes⟩) : Named P (Ensemble.absorb s processes) where
  registered := named.registered
  builds p hp := by
    rcases List.mem_append.mp hp with hp | hp
    · exact named.builds p hp
    · obtain ⟨work, -, rfl⟩ := List.mem_map.mp hp
      cases work <;> exact ModelFactory.forall_mem_none
  made := named.made
  inUse := named.inUse

/-- A step brings into use what it was about to make. -/
theorem Named.advances {s t : Session} {ps qs : List Process} {factory? : Option ModelFactory}
    (named : Named P ⟨s, ps⟩) (on : s.Advances t) (brought : s.Builds t factory?)
    (own : ∀ f ∈ factory?, P f.name) (registered : ∀ f ∈ t.registry.models, P f.name)
    (builds : ∀ q ∈ qs, ∀ f ∈ q.builds?, P f.name) : Named P ⟨t, qs⟩ where
  registered := registered
  builds := builds
  made x hx := by
    rcases brought x hx with old | ⟨made, -⟩
    · exact Nat.lt_of_lt_of_le (named.made x old) on.contexts_length
    · exact made
  inUse x hx := by
    rcases brought x hx with old | ⟨-, f, hf, new⟩
    · exact (on.context _ (named.made x old)).modelFactory ▸ named.inUse x old
    · exact new ▸ own f hf

theorem Named.deed {e : Ensemble} (named : Named P e) {d : Deed}
    (fits : (Move.deed d).RegistersOnly P) : Named P ⟨d.apply e.session, e.processes⟩ := by
  have brought : e.session.Builds (d.apply e.session) none :=
    .of_eq (congrArg Manager.tracked (Deed.manager_apply e.session d))
  refine named.advances (.deed e.session d) brought ModelFactory.forall_mem_none ?_ named.builds
  cases d with
  | setRegistry registry => exact fits registry rfl
  | startCoordinator k =>
    rw [Deed.apply, Session.registry_startCoordinator]
    exact named.registered
  | disposeWidget w => cases w <;> exact named.registered
  | _ => exact named.registered

/-- A process goes on. -/
theorem Named.go {e : Ensemble} (named : Named P e) (i : Nat) (oracle : Oracle) :
    Named P (e.go i oracle) := by
  rcases go_cases e i oracle with same | ⟨p, others, perm, -, same⟩
  · rwa [same]
  · have among (q : Process) (hq : q ∈ p :: others) : ∀ f ∈ q.builds?, P f.name :=
      named.builds q (perm.mem_iff.mp hq)
    rw [same]
    refine Named.absorb (named.advances (.process e.session p _) (.process e.session p _)
      (among p List.mem_cons_self) ?_ fun q hq => ?_)
    · rw [Process.registry_resume]
      exact named.registered
    · rcases List.mem_append.mp hq with other | next
      · exact among q (List.mem_cons_of_mem p other)
      · cases goes : (p.resume e.session (oracle p.need)).2 with
        | inr outcome =>
          rw [goes] at next
          exact absurd next List.not_mem_nil
        | inl r =>
          rw [goes] at next
          obtain rfl := List.mem_singleton.mp next
          intro f hf
          rcases Process.builds?_of_resume goes f hf with own | known
          · exact among p List.mem_cons_self f own
          · exact named.registered f known

/-- **One move.** -/
theorem Named.step {e : Ensemble} (named : Named P e) {m : Move} (fits : m.RegistersOnly P) :
    Named P (e.step m) := by
  cases m with
  | deed d => exact (named.deed fits).absorb
  | enter p =>
    simp only [Ensemble.step]
    split
    · next call =>
      refine { named with builds := fun q hq => ?_ }
      rcases List.mem_append.mp hq with old | new
      · exact named.builds q old
      · rw [List.mem_singleton.mp new]
        cases p with
        | manager stage =>
          cases stage with
          | called op => exact ModelFactory.forall_mem_none
          | _ => cases call
        | _ => exact ModelFactory.forall_mem_none
    · exact named
  | go i oracle => exact named.go i oracle

/-- **Every run** in which only such factories are registered has only such factories in use. -/
theorem named_run (config : Settings) (moves : List Move)
    (fits : ∀ m ∈ moves, m.RegistersOnly P) : Named P ((start config).run moves) := by
  have fresh : Named P (start config) :=
    ⟨fun f hf => absurd hf List.not_mem_nil, fun p hp => absurd hp List.not_mem_nil,
      fun t ht => absurd ht List.not_mem_nil, fun t ht => absurd ht List.not_mem_nil⟩
  exact run_keeps (fun e m ok named => named.step ok) moves _ fits fresh

end Ensemble

end Folio
