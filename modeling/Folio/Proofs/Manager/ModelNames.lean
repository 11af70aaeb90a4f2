/-
# The name of a model factory

A registry takes two names for one if they agree in lower case (`Host.sameModel_iff`).  A context in
use is of the model factory of a name if that and its own name agree up to the case of the letters
of ASCII.  What is one name to the manager is one to the registry, and on names whose capital
letters are all of ASCII the two agree.

So as long as only such names are registered, no two live contexts are of one path and of one model
factory, as the registry names them, and to open a document makes no second context for it, however
factories are taken back and registered again in other spellings.

With other names that fails.  A factory is taken back and registered again in another spelling while
a document of it is open; the document is opened again.  It is found if the spellings agree up to
the letters of ASCII, and else it gets a second context (`Ensemble.liveDocuments_reopens`).
-/
import Folio.Proofs.Manager.Factories
import Folio.Proofs.Manager.OneContext
import Folio.Proofs.Registry.Handles
import Folio.Proofs.Text.Names

namespace Folio

/-! ## 1. Names to a registry -/

namespace Host

open Catalog

/-- **The two names are one to the registry**: whatever was registered and taken back, they stand
for the same model factory. -/
def SameModel (a b : String) : Prop :=
  ∀ commands, (after commands).registry.model? a = (after commands).registry.model? b

end Host

namespace Registry

variable {r : Registry} {f : ModelFactory}

/-- A name in lower case is not empty, if it was not. -/
theorem lower_ne_empty {name : String} (named : name ≠ "") : Text.lower name ≠ "" := by
  rw [Text.lower, ne_eq, ← String.ofList_nil, String.ofList_inj, Text.lowerChars,
    Text.lowerAfter_eq_nil, String.toList_eq_nil_iff]
  exact named

/-- Names that agree in lower case stand for the same factory. -/
theorem model?_congr {a b : String} (same : Text.lower a = Text.lower b) :
    r.model? a = r.model? b := by
  rw [model?, same, model?]

/-- **A model factory is registered** under a name that is free. -/
theorem addModel_of_free (named : f.name ≠ "") (free : r.model? f.name = none) :
    r.addModel f = r.accept (r.tables.putModel (Text.lower f.name) f) .modelFactory
      (Text.lower f.name) f.name := by
  have absent : r.tables.models.contains (Text.lower f.name) = false := by
    rw [Table.contains_eq_isSome_get?, ← model?, free, Option.isSome_none]
  simp only [addModel, if_neg (lower_ne_empty named), absent, Bool.false_eq_true, if_false]

/-- It is found by every name that agrees in lower case, and all others mean what they meant. -/
theorem model?_addModel (named : f.name ≠ "") (free : r.model? f.name = none) (name : String) :
    (r.addModel f).1.model? name =
      if Text.lower name = Text.lower f.name then some f else r.model? name := by
  rw [addModel_of_free named free]
  exact Table.get?_put _ _ _ _

/-- **It is taken back**, and its name is free again. -/
theorem model?_unregister (there : r.model? f.name = some f) :
    (r.unregister (Entry.model f).handle).model? f.name = none := by
  have known : r.isRegistered (Entry.model f).handle = true := by
    show r.tables.models.contains (Text.lower f.name) = true
    rw [Table.contains_eq_isSome_get?, ← model?, there, Option.isSome_some]
  rw [unregister, if_pos known]
  exact (Table.get?_erase _ _ _).trans (if_pos rfl)

/-- Factories of widgets are found as before. -/
theorem widget?_addModel (r : Registry) (f : ModelFactory) (name : String) :
    (r.addModel f).1.widget? name = r.widget? name := by
  unfold addModel
  simp only
  split
  · rfl
  · split <;> rfl

theorem widget?_unregister (r : Registry) (f : ModelFactory) (name : String) :
    (r.unregister (Entry.model f).handle).widget? name = r.widget? name := by
  unfold unregister
  split <;> rfl

end Registry

namespace Host

open Catalog

theorem lower_eq_of_sameModel {a b : String} (same : SameModel a b) (named : a ≠ "") :
    Text.lower a = Text.lower b := by
  let f : ModelFactory := { ModelFactory.text with name := a }
  have known (name : String) : (after [.addModel f]).registry.model? name =
      if Text.lower name = Text.lower a then some f else none :=
    Registry.model?_addModel (r := .empty) named rfl name
  have both := same [.addModel f]
  rw [known, known, if_pos rfl] at both
  by_contra other
  rw [if_neg (Ne.symm other)] at both
  cases both

/-- **To a registry names are one** just if they agree in lower case. -/
theorem sameModel_iff {a b : String} : SameModel a b ↔ Text.lower a = Text.lower b := by
  constructor
  · intro same
    by_cases namedA : a = ""
    · by_cases namedB : b = ""
      · rw [namedA, namedB]
      · exact (lower_eq_of_sameModel (fun commands => (same commands).symm) namedB).symm
    · exact lower_eq_of_sameModel same namedA
  · exact fun lower commands => Registry.model?_congr lower

end Host

/-! ## 2. Opening -/

open Session in
/-- **A context is made** for a document that no live context in use is of. -/
theorem Manager.differsFrom_of_openNow {s : Session}
    (made : ∀ y ∈ s.manager.tracked, y.context < s.contexts.length) {path : String}
    {widget : WidgetFactory} {model : ModelFactory} {hint : Option OpenHint} {x y : Tracked}
    (new : x ∈ (openNow s path widget model hint).1.manager.tracked)
    (fresh : x ∉ s.manager.tracked) (hy : y ∈ s.manager.tracked)
    (live : (openNow s path widget model hint).1.IsLive y) :
    (openNow s path widget model hint).1.DiffersFrom y x := by
  revert new live
  simp only [openNow]
  split
  · exact fun new _ => absurd new fresh
  · next none =>
    intro new live
    have closed : s.isOpenFor y path model.name = false :=
      Bool.eq_false_iff.mpr (List.find?_eq_none.mp none y hy)
    rcases List.mem_append.mp new with old | new
    · exact absurd old fresh
    · rw [List.mem_singleton.mp new]
      exact differsFrom_newTracked false (made y hy) closed live

namespace Stage

/-- The call opens a document, once it has the contexts to itself. -/
def opensDocument : Stage → Bool
  | .updating (.open _ _ _ _) => true
  | .closing _ _ (.open _ _ _ _) => true
  | _ => false

/-- **What a call that opens a document brings into use** differs from all that is live. -/
theorem differsFrom_of_opensDocument {s : Session}
    (made : ∀ y ∈ s.manager.tracked, y.context < s.contexts.length) {stage : Stage}
    (opens : stage.opensDocument = true) (answer : stage.need.Answer) {x y : Tracked}
    (new : x ∈ (stage.resume s answer).1.manager.tracked) (fresh : x ∉ s.manager.tracked)
    (hy : y ∈ s.manager.tracked) (live : (stage.resume s answer).1.IsLive y) :
    (stage.resume s answer).1.DiffersFrom y x := by
  cases stage with
  | updating update =>
    cases update with
    | «open» path widget model hint =>
      simp only [resume, Manager.update] at new live ⊢
      rcases Manager.retireWhere_cases s _ (.open path widget model hint) with
        same | ⟨z, rest, same⟩
      · rw [same] at new live ⊢
        exact Manager.differsFrom_of_openNow made new fresh hy live
      · rw [same] at new
        exact absurd (List.mem_of_mem_filter new) fresh
    | _ => cases opens
  | closing first rest after =>
    have tracked : (s.retireContext first).manager.tracked = s.manager.tracked := by
      rw [Session.manager_retireContext]
    have known : ∀ z ∈ (s.retireContext first).manager.tracked,
        z.context < (s.retireContext first).contexts.length := fun z hz => by
      rw [Session.contexts_length_retireContext]
      exact made z (tracked ▸ hz)
    cases after with
    | «open» path widget model hint =>
      cases rest with
      | nil =>
        exact Manager.differsFrom_of_openNow known new (tracked ▸ fresh) (tracked ▸ hy) live
      | cons z rest => exact absurd (tracked ▸ new) fresh
    | _ => cases opens
  | _ => cases opens

end Stage

namespace Ensemble

theorem differsFrom_of_opens {e : Ensemble}
    (made : ∀ y ∈ e.session.manager.tracked, y.context < e.session.contexts.length) {i : Nat}
    {stage : Stage} (there : e.processes[i]? = some (.manager stage))
    (opens : stage.opensDocument = true) (oracle : Oracle) {x y : Tracked}
    (new : x ∈ (e.go i oracle).session.manager.tracked) (fresh : x ∉ e.session.manager.tracked)
    (hy : y ∈ e.session.manager.tracked) (live : (e.go i oracle).session.IsLive y) :
    (e.go i oracle).session.DiffersFrom y x := by
  revert new live
  simp only [Ensemble.go, there]
  split
  · simp only [Ensemble.absorb, session_manager]
    exact fun new live => Stage.differsFrom_of_opensDocument made opens _ new fresh hy live
  · exact fun new _ => absurd new fresh

/-! ## 3. A factory in another spelling -/

/-- The host changes the registry and opens a document, by a call that goes on until it ends. -/
def opening (registry : Registry) (path factory : String) (place : Nat) : List Move :=
  [.deed (.setRegistry registry), .call (.open path factory none), .go place .obliging,
    .go place .obliging, .go place .obliging]

/-- The path and the model factory of each live context in use. -/
def liveDocuments (s : Session) : List (String × String) :=
  ((s.manager.tracked.map fun t => s.context t.context).filter fun c =>
    !c.isDisposed && !c.hasFailed).map fun c => (c.path, c.modelFactory)

/-- A call that opens a document and has not begun. -/
def caller (path factory : String) : Process := .manager (.called (.open path factory none))

/-- A call that is about to look for the context of a document. -/
def seeker (path : String) (w : WidgetFactory) (f : ModelFactory) : Process :=
  .manager (.updating (.open path w f none))

/-- A context as it is made for a document. -/
def fresh (path : String) (f : ModelFactory) : Context :=
  { path, modelFactory := f.name, contentType := f.contentType, model := f.build }

/-- **The process that came last goes on.** -/
theorem go_last (s : Session) (ps : List Process) (p : Process) (oracle : Oracle)
    (free : permits ps p.need = true) : (⟨s, ps ++ [p]⟩ : Ensemble).go ps.length oracle =
      absorb (p.resume s (oracle p.need)).1 (ps ++ continuing (p.resume s (oracle p.need)).2) := by
  have others : (ps ++ [p]).eraseIdx ps.length = ps := by
    rw [List.eraseIdx_append_of_length_le (Nat.le_refl _), Nat.sub_self]
    exact List.append_nil ps
  simp only [Ensemble.go, List.getElem?_concat_length, others, free, if_true]

theorem absorb_quiet {s : Session} (quiet : s.started = []) (ps : List Process) :
    absorb s ps = ⟨s, ps⟩ := by
  rw [Ensemble.absorb, quiet, List.map_nil, List.append_nil]
  congr 1
  rw [← quiet]

section Reopening

variable {s : Session} {path factory : String} {w : WidgetFactory} {f : ModelFactory}

/-- **The call begins** with the factories that are registered. -/
theorem go_caller (quiet : s.started = []) (alive : s.manager.disposed = false)
    (ps : List Process) (known : s.registry.widgetFor? path factory = some w)
    (built : s.registry.model? w.modelName = some f) :
    (⟨s, ps ++ [caller path factory]⟩ : Ensemble).go ps.length .obliging =
      ⟨s, ps ++ [seeker path w f]⟩ := by
  have begun : Manager.begin s (.open path factory none) =
      Manager.await s (.updating (.open path w f none)) := by
    simp [Manager.begin, Manager.factoriesFor, known, built]
  have resumed : ∀ answer, (caller path factory).resume s answer = (s, .inl (seeker path w f)) := by
    rintro ⟨⟩
    simp [caller, seeker, Process.resume, Stage.resume, alive, begun, Manager.await]
  rw [go_last s ps (caller path factory) .obliging rfl, resumed]
  exact absorb_quiet quiet _

/-- **The call goes on**: it has nothing to close before, since the context in use has not failed.
-/
theorem resume_seeker {g : ModelFactory} (tracked : s.manager.tracked = [⟨0, 0⟩])
    (contexts : s.contexts = [fresh path f]) : ∀ answer, (seeker path w g).resume s answer =
      if Text.sameAscii f.name g.name then
        ((s.newWidget w 0 none).1, .inl (.manager (.binding (.issued s.widgets.length) 0)))
      else (((s.withTracked path g false).newWidget w s.contexts.length none).1,
        .inl (.manager (.binding (.issued s.widgets.length) s.contexts.length))) := by
  rintro ⟨⟩
  have first : s.context 0 = fresh path f := by simp [Session.context, contexts]
  have isOpen : s.isOpenFor ⟨0, 0⟩ path g.name = Text.sameAscii f.name g.name := by
    simp [Session.isOpenFor, Session.standsFor, first, fresh, Context.isDisposed,
      Context.hasFailed]
  have sound : (s.context 0).hasFailed = false := by rw [first]; rfl
  have updated : Manager.update s (.open path w g none) = Manager.openNow s path w g none := by
    have same : s.setTracked [⟨0, 0⟩] = s := by rw [← tracked]; rfl
    simp [Manager.update, Manager.retireWhere_eq, Manager.retireEach, Manager.afterClosing,
      tracked, sound, same]
  have found : s.manager.tracked.find? (fun t => s.isOpenFor t path g.name) =
      if Text.sameAscii f.name g.name then some ⟨0, 0⟩ else none := by
    rw [tracked, List.find?_singleton, isOpen]
  simp only [seeker, Process.resume, Stage.resume, updated, Manager.openNow, found]
  cases Text.sameAscii f.name g.name <;> rfl

/-- **The document is looked for** where one context is in use, which is at its path: it is found
if the names agree up to the letters of ASCII, and else it gets another one. -/
theorem liveDocuments_seeker {g : ModelFactory} (quiet : s.started = [])
    (tracked : s.manager.tracked = [⟨0, 0⟩]) (contexts : s.contexts = [fresh path f]) :
    liveDocuments ((⟨s, [.load 0 false] ++ [seeker path w g]⟩ : Ensemble).run
        [.go 1 .obliging, .go 1 .obliging]).session =
      if Text.sameAscii f.name g.name then [(path, f.name)]
      else [(path, f.name), (path, g.name)] := by
  have went := go_last s [.load 0 false] (seeker path w g) .obliging rfl
  rw [List.length_singleton, resume_seeker tracked contexts] at went
  rw [run_cons, Ensemble.step, went]
  cases Text.sameAscii f.name g.name with
  | true =>
    rw [if_pos rfl, if_pos rfl, absorb_quiet (s := (s.newWidget w 0 none).1) quiet]
    show ((s.manager.tracked.map fun t => s.context t.context).filter _).map _ = _
    rw [tracked, List.map_singleton, Session.context, contexts]
    rfl
  | false =>
    have starts : ((s.withTracked path g false).newWidget w s.contexts.length none).1.started =
        [.load s.coordinators.length false] := congrArg (· ++ [_]) quiet
    have both : (s.withTracked path g false).contexts = [fresh path f, fresh path g] :=
      congrArg (· ++ [fresh path g]) contexts
    have inUse : (s.withTracked path g false).manager.tracked =
        [⟨0, 0⟩, ⟨s.contexts.length, s.coordinators.length⟩] :=
      congrArg (· ++ [_]) tracked
    rw [if_neg Bool.false_ne_true, if_neg Bool.false_ne_true, Ensemble.absorb, starts]
    show (((s.withTracked path g false).manager.tracked.map fun t =>
      (s.withTracked path g false).context t.context).filter _).map _ = _
    rw [inUse, contexts]
    simp only [List.map_cons, List.map_nil, Session.context, both]
    rfl

/-- **A document is opened under two registries** in turn. -/
theorem liveDocuments_openings {before after : Registry} {w₁ w₂ : WidgetFactory}
    {f g : ModelFactory} (known₁ : before.widgetFor? path factory = some w₁)
    (built₁ : before.model? w₁.modelName = some f)
    (known₂ : after.widgetFor? path factory = some w₂)
    (built₂ : after.model? w₂.modelName = some g) :
    liveDocuments ((start {}).run
        (opening before path factory 0 ++ opening after path factory 1)).session =
      if Text.sameAscii f.name g.name then [(path, f.name)]
      else [(path, f.name), (path, g.name)] := by
  let s₀ : Session := { Session.create {} with registry := before }
  have first : (start {}).run (opening before path factory 0) =
      (⟨s₀, [seeker path w₁ f]⟩ : Ensemble).run [.go 0 .obliging, .go 0 .obliging] := by
    rw [opening, run_cons, run_cons, run_cons]
    exact congrArg (Ensemble.run · [.go 0 .obliging, .go 0 .obliging])
      (go_caller (s := s₀) rfl rfl [] known₁ built₁)
  obtain ⟨s₁, once, registry, alive, quiet, tracked, contexts⟩ : ∃ s₁ : Session,
      ((⟨s₀, [seeker path w₁ f]⟩ : Ensemble).run [.go 0 .obliging, .go 0 .obliging]).step
        (.deed (.setRegistry after)) = ⟨s₁, [.load 0 false]⟩ ∧
      s₁.registry = after ∧ s₁.manager.disposed = false ∧ s₁.started = [] ∧
      s₁.manager.tracked = [⟨0, 0⟩] ∧ s₁.contexts = [fresh path f] :=
    ⟨_, rfl, rfl, rfl, rfl, rfl, rfl⟩
  have second : (⟨s₁, [.load 0 false] ++ [caller path factory]⟩ : Ensemble).go 1 .obliging =
      ⟨s₁, [.load 0 false] ++ [seeker path w₂ g]⟩ :=
    go_caller quiet alive [.load 0 false] (registry ▸ known₂) (registry ▸ built₂)
  rw [run_append, first, opening, run_cons, once, run_cons,
    ← liveDocuments_seeker quiet tracked contexts, ← second]
  rfl

end Reopening

/-- The host registers a factory of models and opens a document; then it takes the factory back,
registers another one, and opens the document again. -/
def reopens (r : Registry) (path factory : String) (f g : ModelFactory) : List Move :=
  opening (r.addModel f).1 path factory 0 ++
    opening (((r.addModel f).1.unregister (Entry.model f).handle).addModel g).1 path factory 1

/-- **A document whose factory is registered again in another spelling** is found in its context
just if the spellings agree up to the letters of ASCII, and else it gets another one. -/
theorem liveDocuments_reopens {r : Registry} {path factory : String} {w : WidgetFactory}
    {f g : ModelFactory} (plain : Text.sameAscii factory RegistryTables.defaultName = false)
    (known : r.widget? factory = some w) (needs : w.modelName = f.name) (named : f.name ≠ "")
    (free : r.model? f.name = none) (spelled : Text.lower g.name = Text.lower f.name) :
    liveDocuments ((start {}).run (reopens r path factory f g)).session =
      if Text.sameAscii f.name g.name then [(path, f.name)]
      else [(path, f.name), (path, g.name)] := by
  have there : (r.addModel f).1.model? f.name = some f :=
    (Registry.model?_addModel named free f.name).trans (if_pos rfl)
  have named' : g.name ≠ "" := fun none =>
    Registry.lower_ne_empty named (spelled.symm.trans (congrArg Text.lower none))
  have free' : ((r.addModel f).1.unregister (Entry.model f).handle).model? g.name = none :=
    (Registry.model?_congr spelled).trans (Registry.model?_unregister there)
  have names {t : Registry} (same : t.widget? factory = r.widget? factory) :
      t.widgetFor? path factory = some w := by
    rw [Registry.widgetFor?, plain, if_neg Bool.false_ne_true, same, known]
  refine liveDocuments_openings (names (r.widget?_addModel f factory)) (needs ▸ there)
    (names ?_) ?_
  · rw [Registry.widget?_addModel, Registry.widget?_unregister, Registry.widget?_addModel]
  · rw [needs, Registry.model?_addModel named' free', if_pos spelled.symm]

end Ensemble

/-! ## 4. The theorem -/

namespace Session

/-- **Two contexts are of one document**, as the registry names model factories. -/
def SameDocument (s : Session) (t u : Tracked) : Prop :=
  (s.context t.context).path = (s.context u.context).path ∧
    Host.SameModel (s.context t.context).modelFactory (s.context u.context).modelFactory

variable {s : Session} {t u : Tracked} {path name : String}

/-- What is one name to the manager is one to the registry. -/
theorem sameModel_of_standsFor (stands : s.standsFor t path name = true) :
    Host.SameModel (s.context t.context).modelFactory name :=
  Host.sameModel_iff.mpr (Text.lower_eq_of_sameAscii (Bool.and_eq_true_iff.mp stands).2)

theorem standsFor_iff_sameModel (there : s.isAt t path = true)
    (ascii : Text.AsciiCapitals (s.context t.context).modelFactory)
    (ascii' : Text.AsciiCapitals name) :
    s.standsFor t path name = true ↔ Host.SameModel (s.context t.context).modelFactory name := by
  have split : s.standsFor t path name =
      (s.isAt t path && Text.sameAscii (s.context t.context).modelFactory name) := rfl
  rw [split, there, Bool.true_and, Text.sameAscii_iff ascii ascii', Host.sameModel_iff]

theorem not_sameDocument_of_differsFrom (differ : s.DiffersFrom t u)
    (ascii : Text.AsciiCapitals (s.context t.context).modelFactory)
    (ascii' : Text.AsciiCapitals (s.context u.context).modelFactory) : ¬ s.SameDocument t u := by
  rintro ⟨samePath, same⟩
  rcases differ with other | other
  · exact other samePath
  · rw [Host.sameModel_iff, ← Text.sameAscii_iff ascii ascii', other] at same
    cases same

end Session

namespace Ensemble

/-- **Registry and manager agree on names whose capital letters are all of ASCII.**  A live context
stands for a path and the name of a model factory just if that is one name with its own to the
registry.  As long as no other factories are registered, whatever is taken back and registered again
in the meantime:

* a call that opens a document makes no second context for it;
* no two live contexts in use are of one document, if contexts move with their files only.

On other names the manager is the finer one: what is one name to it is one to the registry, and
where a factory is registered again under a name that is one with the old one to the registry
alone, a document that is open gets a second context when it is opened. -/
theorem registry_and_manager_agree (config : Settings) (moves : List Move)
    (ascii : ∀ m ∈ moves, m.RegistersOnly Text.AsciiCapitals) :
    (∀ (s : Session) (t : Tracked) (path name : String), s.isAt t path = true →
        Text.AsciiCapitals (s.context t.context).modelFactory → Text.AsciiCapitals name →
        (s.standsFor t path name = true ↔
          Host.SameModel (s.context t.context).modelFactory name)) ∧
      (∀ (i : Nat) (stage : Stage) (oracle : Oracle),
        let e := (start config).run moves
        e.processes[i]? = some (.manager stage) → stage.opensDocument = true →
        ∀ x ∈ (e.go i oracle).session.manager.tracked, x ∉ e.session.manager.tracked →
        ∀ y ∈ e.session.manager.tracked, (e.go i oracle).session.IsLive y →
          ¬ (e.go i oracle).session.SameDocument y x) ∧
      ((∀ m ∈ moves, m.movesContext = false) →
        let s := ((start config).run moves).session
        s.manager.tracked.Pairwise fun t u => s.IsLive t → s.IsLive u → ¬ s.SameDocument t u) ∧
      (∀ (s : Session) (t : Tracked) (path name : String), s.standsFor t path name = true →
        Host.SameModel (s.context t.context).modelFactory name) ∧
      ∀ (r : Registry) (path factory : String) (w : WidgetFactory) (f g : ModelFactory),
        Text.sameAscii factory RegistryTables.defaultName = false → r.widget? factory = some w →
        w.modelName = f.name → f.name ≠ "" → r.model? f.name = none →
        Host.SameModel f.name g.name →
        liveDocuments ((start {}).run (reopens r path factory f g)).session =
          if Text.sameAscii f.name g.name then [(path, f.name)]
          else [(path, f.name), (path, g.name)] := by
  have named := named_run config moves ascii
  refine ⟨fun s t path name => Session.standsFor_iff_sameModel, ?_, ?_,
    fun s t path name => Session.sameModel_of_standsFor, ?_⟩
  · intro i stage oracle e there opens x new old y hy live
    have differ := differsFrom_of_opens named.made there opens oracle new old hy live
    refine Session.not_sameDocument_of_differsFrom differ ?_ ((named.go i oracle).inUse x new)
    have evolves := (advances_step e (.go i oracle)).context y.context (named.made y hy)
    exact evolves.modelFactory ▸ named.inUse y hy
  · intro stay
    refine (distinct_run config moves stay).apart.imp_of_mem fun {t u} ht hu apart liveT liveU => ?_
    exact Session.not_sameDocument_of_differsFrom (apart liveT liveU) (named.inUse t ht)
      (named.inUse u hu)
  · intro r path factory w f g plain known needs nonempty free same
    exact liveDocuments_reopens plain known needs nonempty free (Host.sameModel_iff.mp same).symm

/-- A factory of texts under a name. -/
def spelled (name : String) : ModelFactory := { ModelFactory.text with name }

/-- A registry with a factory of widgets that needs a model factory of the name. -/
def waitingFor (name : String) : Registry :=
  (Registry.empty.addWidget (.create "editor" name)).1

/-- The host opens a document, registers its model factory again in another spelling, and is about
to open another document. -/
def respells : List Move :=
  let before := ((waitingFor "größe").addModel (spelled "größe")).1
  let after :=
    ((before.unregister (Entry.model (spelled "größe")).handle).addModel (spelled "GRößE")).1
  opening before "a.txt" "editor" 0 ++ (opening after "b.txt" "editor" 1).take 3

/-- The old context stands for the new spelling, and the other document gets a context of its own;
had it been the same document, there would have been no second one. -/
theorem registry_and_manager_agree_respells :
    let e := (start {}).run respells
    let next := e.go 1 .obliging
    (∀ m ∈ respells, m.RegistersOnly Text.AsciiCapitals) ∧
      (∀ m ∈ respells, m.movesContext = false) ∧
      (e.session.standsFor ⟨0, 0⟩ "a.txt" "GRößE" = true ∧
        Host.SameModel (e.session.context 0).modelFactory "GRößE") ∧
      liveDocuments next.session = [("a.txt", "größe"), ("b.txt", "GRößE")] ∧
      ¬ next.session.SameDocument ⟨0, 0⟩ ⟨1, 1⟩ ∧
      (next.session.manager.tracked.Pairwise fun t u => next.session.IsLive t →
        next.session.IsLive u → ¬ next.session.SameDocument t u) ∧
      liveDocuments ((start {}).run (reopens (waitingFor "größe") "a.txt" "editor"
        (spelled "größe") (spelled "GRößE"))).session = [("a.txt", "größe")] := by
  intro e next
  have ascii : ∀ m ∈ respells, m.RegistersOnly Text.AsciiCapitals := by decide +kernel
  have stay : ∀ m ∈ respells, m.movesContext = false := by decide +kernel
  obtain ⟨agree, opens, -, refines, reopened⟩ := registry_and_manager_agree {} respells ascii
  obtain ⟨stands, here, old, plain, plain'⟩ :
      e.session.standsFor ⟨0, 0⟩ "a.txt" "GRößE" = true ∧
        e.session.isAt ⟨0, 0⟩ "a.txt" = true ∧ ⟨0, 0⟩ ∈ e.session.manager.tracked ∧
        Text.AsciiCapitals (e.session.context 0).modelFactory ∧ Text.AsciiCapitals "GRößE" := by
    decide +kernel
  have there : e.processes[1]? = some (.manager (.updating
      (.open "b.txt" (.create "editor" "größe") (spelled "GRößE") none))) := rfl
  obtain ⟨new, fresh, alive, sound, documents⟩ :
      ⟨1, 1⟩ ∈ next.session.manager.tracked ∧ ⟨1, 1⟩ ∉ e.session.manager.tracked ∧
        (next.session.context 0).isDisposed = false ∧ (next.session.context 0).hasFailed = false ∧
        liveDocuments next.session = [("a.txt", "größe"), ("b.txt", "GRößE")] := by
    decide +kernel
  refine ⟨ascii, stay, ⟨stands, ?_⟩, documents, ?_, ?_, ?_⟩
  · exact (agree e.session ⟨0, 0⟩ "a.txt" "GRößE" here plain plain').mp stands
  · exact opens 1 _ .obliging there rfl ⟨1, 1⟩ new fresh ⟨0, 0⟩ old ⟨alive, sound⟩
  · have further := registry_and_manager_agree {} (respells ++ [.go 1 .obliging])
      (by decide +kernel)
    have apart := further.2.2.1 (by decide +kernel)
    rwa [run_append] at apart
  · obtain ⟨known, found, same⟩ :
        Text.sameAscii "editor" RegistryTables.defaultName = false ∧
          (waitingFor "größe").widget? "editor" = some (.create "editor" "größe") ∧
          Text.sameAscii "größe" "GRößE" = true := by
      decide +kernel
    have once := reopened (waitingFor "größe") "a.txt" "editor" (.create "editor" "größe")
      (spelled "größe") (spelled "GRößE") known found rfl (by decide) rfl
      (refines e.session ⟨0, 0⟩ "a.txt" "GRößE" stands)
    exact once.trans (if_pos same)

/-- With a capital letter that is not of ASCII, a document that is open gets a second context. -/
theorem registry_and_manager_differ :
    let s := ((start {}).run (reopens (waitingFor "Ä") "a.txt" "editor" (spelled "Ä")
      (spelled "ä"))).session
    Host.SameModel "Ä" "ä" ∧ s.standsFor ⟨0, 0⟩ "a.txt" "Ä" = true ∧
      s.standsFor ⟨0, 0⟩ "a.txt" "ä" = false ∧
      liveDocuments s = [("a.txt", "Ä"), ("a.txt", "ä")] ∧ s.SameDocument ⟨0, 0⟩ ⟨1, 1⟩ := by
  intro s
  have same : Host.SameModel "Ä" "ä" := Host.sameModel_iff.mpr (by decide +kernel)
  obtain ⟨old, new, documents, path, before, after⟩ :
      s.standsFor ⟨0, 0⟩ "a.txt" "Ä" = true ∧ s.standsFor ⟨0, 0⟩ "a.txt" "ä" = false ∧
        liveDocuments s = [("a.txt", "Ä"), ("a.txt", "ä")] ∧
        (s.context 0).path = (s.context 1).path ∧ (s.context 0).modelFactory = "Ä" ∧
        (s.context 1).modelFactory = "ä" := by
    decide +kernel
  refine ⟨same, old, new, documents, path, ?_⟩
  show Host.SameModel (s.context 0).modelFactory (s.context 1).modelFactory
  rwa [before, after]

end Ensemble

end Folio
