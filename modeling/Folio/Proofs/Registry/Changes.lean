/-
# What the changes of a registry tell

Every change of a registry is entered in its journal: an entry was added, or an entry was removed,
by its kind and by the name that it was registered with.  Whoever reads the journal from its
beginning and takes each change to a list of names, putting what was added at the end and taking out
what was removed, has the names of the entries in the order of registration (`replay`).

For this it matters that a change is entered exactly when the entries change.  An accepted
registration adds one entry and enters one change; a handle that still removes something removes the
entry that it was given out for, under the name of that entry, though the table knows only its lower
case; and nothing else enters anything (`Catalog.Announces`).

A receiver that keeps up gets the changes one by one, so it knows the names at every moment.
-/
import Folio.Proofs.Registry.Handles
import Folio.Proofs.Journal.Receiving
import Mathlib.Data.List.Infix

namespace Folio

/-! ## 1. Replaying changes -/

/-- The names of a kind after a change: what is added comes last, what is removed is taken out. -/
def replay (kind : EntryKind) (names : List String) (change : RegistryChange) : List String :=
  if change.kind ≠ kind then names
  else if change.added then names ++ [change.name]
  else names.erase change.name

namespace Registry

/-- **All changes that were ever announced**, oldest first. -/
def announced (r : Registry) : List RegistryChange := r.changes.entries.toList

/-- **The names of the entries of a kind**, in the order of registration. -/
def namesOf (r : Registry) : EntryKind → List String
  | .modelFactory => r.models.map (·.name)
  | .widgetFactory => r.widgets.map (·.name)
  | .fileType => r.tables.fileTypes.map (·.name)

theorem namesOf_eq (r : Registry) (kind : EntryKind) :
    r.namesOf kind = (r.tables.entriesOf kind).map Entry.name := by
  cases kind <;> simp only [namesOf, models, widgets, RegistryTables.entriesOf, List.map_map] <;>
    rfl

/-! ## 2. What each operation announces -/

variable {r : Registry}

theorem announced_emit (r : Registry) (tables : RegistryTables) (change : RegistryChange) :
    Registry.announced { tables, changes := r.changes.emit change } = r.announced ++ [change] := by
  simp [announced, Journal.emit]

/-- A registration is announced when it has passed its two checks. -/
theorem announced_of_checks {invalid taken : Prop} {_ : Decidable invalid} {_ : Decidable taken}
    {why why' : RegistrationError} {tables : RegistryTables} {kind : EntryKind}
    {key name : String} {handle : Handle} {p : Registry × Registration}
    (checks : p = if invalid then (r, .rejected why) else if taken then (r, .rejected why')
      else r.accept tables kind key name)
    (accepted : p.2 = .registered handle) :
    p.1.announced = r.announced ++ [⟨true, kind, name⟩] := by
  subst checks
  split at accepted
  · cases accepted
  · next named =>
    split at accepted
    · cases accepted
    · next free => rw [if_neg named, if_neg free, accept, announced_emit]

/-- **An accepted registration is announced** once, by the name of the entry. -/
theorem announced_register {e : Entry} {handle : Handle}
    (accepted : (r.register e).2 = .registered handle) :
    (r.register e).1.announced = r.announced ++ [⟨true, e.kind, e.name⟩] := by
  cases e with
  | model f => exact announced_of_checks rfl accepted
  | widget f => exact announced_of_checks rfl accepted
  | fileType f => exact announced_of_checks rfl accepted

/-- **The removal of an entry that is there is announced** once, by the name of the entry. -/
theorem announced_unregister (agree : r.tables.Consistent) {e : Entry} (he : e ∈ r.tables.entries) :
    (r.unregister e.handle).announced = r.announced ++ [⟨false, e.kind, e.name⟩] := by
  rw [unregister, if_pos (isRegistered_of_mem agree he), announced_emit]
  rfl

/-- Choosing a default announces nothing. -/
theorem announced_setDefault {r' : Registry} {extension : String} {factory : Option String}
    (hr : r.setDefault extension factory = .ok r') : r'.announced = r.announced := by
  unfold setDefault at hr
  cases factory with
  | none =>
    cases hr
    rfl
  | some name =>
    dsimp only at hr
    split at hr
    · cases hr
    · split at hr
      · cases hr
        rfl
      · cases hr

end Registry

/-! ## 3. What becomes of the names -/

/-- Entries of one kind with distinct slots have distinct names: to leave out a slot is to take out
the name of its entry. -/
theorem map_name_filter_slot {e : Entry} : ∀ {l : List Entry}, (l.map Entry.slot).Nodup → e ∈ l →
    (∀ x ∈ l, x.kind = e.kind) →
      (l.filter (·.slot != e.slot)).map Entry.name = (l.map Entry.name).erase e.name
  | x :: l, distinct, he, kinds => by
    rw [List.map_cons, List.nodup_cons] at distinct
    by_cases hx : x = e
    · subst hx
      have others : l.filter (·.slot != x.slot) = l :=
        List.filter_eq_self.mpr fun y hy =>
          bne_iff_ne.mpr fun hs => distinct.1 (hs ▸ List.mem_map_of_mem hy)
      simp [others]
    · have he : e ∈ l := (List.mem_cons.mp he).resolve_left (Ne.symm hx)
      have slots : x.slot ≠ e.slot := fun hs => distinct.1 (hs ▸ List.mem_map_of_mem he)
      have names : x.name ≠ e.name := fun same =>
        slots (Prod.ext (kinds x List.mem_cons_self) (congrArg Text.lower same))
      have ih := map_name_filter_slot distinct.2 he fun y hy => kinds y (List.mem_cons_of_mem x hy)
      simp [slots, names, ih]

namespace Registry

variable {r : Registry}

/-- **Removing an entry takes its name out** of the names of its kind. -/
theorem namesOf_unregister (agree : r.tables.Consistent) {e : Entry} (he : e ∈ r.tables.entries)
    (kind : EntryKind) :
    (r.unregister e.handle).namesOf kind =
      replay kind (r.namesOf kind) ⟨false, e.kind, e.name⟩ := by
  rw [namesOf_eq, namesOf_eq, entriesOf_unregister agree]
  by_cases same : e.kind = kind
  · subst same
    rw [map_name_filter_slot (RegistryTables.nodup_slots_of_kind agree e.kind)
      (RegistryTables.mem_entries.mp he) fun x hx => RegistryTables.kind_of_mem hx]
    simp [replay]
  · rw [filter_slot_of_ne (Ne.symm same)]
    simp [replay, same]

end Registry

namespace Host

open RegistryTables

namespace Catalog

/-! ## 4. What each command announces -/

/-- **What a command announces**, `es` being the entries that were asked for before: an accepted
registration its entry; the first use of the handle of an entry that this entry, which is there, is
removed; nothing otherwise.  It is never more than one change. -/
structure Announces (c : Catalog) (es : List Entry) (k : RegistryCommand)
    (news : List RegistryChange) : Prop where
  single : news.length ≤ 1
  accepted : ∀ e i handle, k.entry? = some e →
    (c.run k).2 = .registration i (.registered handle) → news = [⟨true, e.kind, e.name⟩]
  rejected : ∀ i error, (c.run k).2 = .registration i (.rejected error) → news = []
  effective : ∀ i handle, k = .unregister (some i) → c.held[i]? = some (.live handle) →
    ∃ e, es[i]? = some e ∧ e ∈ c.registry.tables.entries ∧ news = [⟨false, e.kind, e.name⟩]
  silent : k.entry? = none →
    (∀ i handle, k = .unregister (some i) → c.held[i]? ≠ some (.live handle)) → news = []

/-- The command enters what it announces into the journal, and it changes the names accordingly. -/
def Reports (c : Catalog) (es : List Entry) (k : RegistryCommand) : Prop :=
  ∃ news, (c.run k).1.registry.announced = c.registry.announced ++ news ∧ c.Announces es k news ∧
    ∀ kind, (c.run k).1.registry.namesOf kind =
      news.foldl (replay kind) (c.registry.namesOf kind)

variable {c : Catalog} {es : List Entry} {k : RegistryCommand}

/-- A command that leaves all handles as they are uses none that removes something. -/
theorem not_live_of_held_eq (same : (c.run k).1.held = c.held) (i : Nat) (handle : Handle)
    (use : k = .unregister (some i)) : c.held[i]? ≠ some (.live handle) := by
  intro live
  have used := held_unregister (List.getElem?_eq_some_iff.mp live).1
  rw [← use, same, live] at used
  cases used

/-- Nothing is announced where neither an entry nor a handle that removes something is at stake. -/
theorem reports_of_quiet (none : k.entry? = none)
    (spent : ∀ i handle, k = .unregister (some i) → c.held[i]? ≠ some (.live handle))
    (same : (c.run k).1.registry.announced = c.registry.announced)
    (entries : ∀ kind, (c.run k).1.registry.tables.entriesOf kind =
      c.registry.tables.entriesOf kind) : c.Reports es k := by
  refine ⟨[], by rw [same, List.append_nil], ⟨by simp, ?_, fun _ _ _ => rfl, ?_, fun _ _ => rfl⟩,
    fun kind => ?_⟩
  · intro e i handle asks _
    cases none.symm.trans asks
  · exact fun i handle use live => absurd live (spent i handle use)
  · rw [Registry.namesOf_eq, Registry.namesOf_eq, entries]
    rfl

/-- **A registration**, accepted or not. -/
theorem reports_of_entry (agree : c.registry.tables.Consistent) {e : Entry}
    (asks : k.entry? = some e) : c.Reports es k := by
  have reply : (c.run k).2 = .registration c.held.length (c.registry.register e).2 := by
    rw [run_of_entry asks]
    rfl
  have registry : (c.run k).1.registry = (c.registry.register e).1 := by
    rw [run_of_entry asks]
    rfl
  have unused : ∀ i handle, k = .unregister (some i) → c.held[i]? ≠ some (.live handle) := by
    rintro i handle rfl
    cases asks
  rcases Registry.register_cases e agree with ⟨error, refused⟩ | ⟨accepted, -, entries⟩
  · refine ⟨[], ?_, ⟨by simp, ?_, fun _ _ _ => rfl, ?_, fun _ _ => rfl⟩, fun kind => ?_⟩
    · rw [registry, refused, List.append_nil]
    · intro e' i handle _ accepted
      rw [reply, refused] at accepted
      cases accepted
    · exact fun i handle use live => absurd live (unused i handle use)
    · rw [registry, refused]
      rfl
  · refine ⟨[⟨true, e.kind, e.name⟩], ?_, ⟨by simp, ?_, ?_, ?_, ?_⟩, fun kind => ?_⟩
    · rw [registry, Registry.announced_register accepted]
    · intro e' i handle asks' _
      cases asks.symm.trans asks'
      rfl
    · intro i error refused
      rw [reply, accepted] at refused
      cases refused
    · exact fun i handle use live => absurd live (unused i handle use)
    · intro none
      cases asks.symm.trans none
    · rw [registry, Registry.namesOf_eq, Registry.namesOf_eq, entries, List.map_append]
      by_cases same : e.kind = kind
      · simp [replay, same]
      · simp [replay, same, Ne.symm same]

/-- **The first use of the handle of an entry.** -/
theorem reports_of_live (h : Accounts es c) (agree : c.registry.tables.Consistent) {i : Nat}
    {handle : Handle} (live : c.held[i]? = some (.live handle)) :
    c.Reports es (.unregister (some i)) := by
  obtain ⟨e, asked, rfl⟩ := h.handles i handle live
  have there : e ∈ c.registry.tables.entries := h.mem_entries.mpr (mem_standing asked live)
  have run : c.run (.unregister (some i)) =
      (⟨c.registry.unregister e.handle, c.held.set i .used⟩, .nothing) := by
    simp only [Catalog.run, Catalog.unregister, live]
  refine ⟨[⟨false, e.kind, e.name⟩], ?_, ⟨by simp, ?_, ?_, ?_, ?_⟩, fun kind => ?_⟩
  · rw [run, Registry.announced_unregister agree there]
  · intro e i handle asks
    cases asks
  · intro j error refused
    rw [run] at refused
    cases refused
  · intro j handle use _
    cases use
    exact ⟨e, asked, there, rfl⟩
  · exact fun _ spent => absurd live (spent i _ rfl)
  · rw [run, Registry.namesOf_unregister agree there]
    rfl

/-- **Every command announces what it does to the names.** -/
theorem reports (h : Accounts es c) (agree : c.registry.tables.Consistent) (k : RegistryCommand) :
    c.Reports es k := by
  rcases c.run_cases k with ⟨e, asks, -⟩ | ⟨none, hr⟩
  · exact reports_of_entry agree asks
  rcases hr with ⟨i, handle, rfl, live, -⟩ | ⟨_, _, registry, chosen, hr⟩ | ⟨i, rfl, inert, hr⟩ | hr
  · exact reports_of_live h agree live
  · refine reports_of_quiet none (not_live_of_held_eq (by rw [hr])) ?_ fun kind => ?_
    · rw [hr, Registry.announced_setDefault chosen]
    · rw [hr, Registry.entriesOf_setDefault chosen]
  · refine reports_of_quiet none ?_ (by rw [hr]) fun kind => by rw [hr]
    intro j handle use live
    cases use
    cases inert.symm.trans live
  · refine reports_of_quiet none (not_live_of_held_eq (by rw [hr])) (by rw [hr]) fun kind => ?_
    rw [hr]

theorem declared_of_append {before rest : List RegistryCommand}
    (declared : ∀ f, .widget f ∈ asked (before ++ rest) → f.IsDeclared) :
    ∀ f, .widget f ∈ asked before → f.IsDeclared := by
  intro f hf
  refine declared f ?_
  rw [asked, List.filterMap_append]
  exact List.mem_append_left _ hf

/-- **The changes tell the names**, after any commands. -/
theorem replay_after {commands : List RegistryCommand}
    (declared : ∀ f, .widget f ∈ asked commands → f.IsDeclared) (kind : EntryKind) :
    (after commands).registry.announced.foldl (replay kind) [] =
      (after commands).registry.namesOf kind := by
  induction commands using List.reverseRecOn with
  | nil => cases kind <;> rfl
  | append_singleton commands k ih =>
    have declared' := declared_of_append declared
    obtain ⟨news, more, -, names⟩ :=
      reports (accounts_after declared') (consistent_after declared') k
    rw [after_concat, more, List.foldl_append, ih declared', names]

end Catalog

/-! ## 5. Somebody who listens -/

/-- **A receiver of changes**: its place in the journal, and what it has heard so far. -/
structure Listener where
  place : Nat
  heard : List RegistryChange := []

/-- Somebody subscribes to a registry. -/
def Listener.subscribe (r : Registry) : Listener := { place := r.changes.count }

/-- **The receiver asks once** whether there is a change. -/
def Listener.receive (l : Listener) (r : Registry) : Listener :=
  match r.changes.receive l.place with
  | (.value change, place) => ⟨place, l.heard ++ [change]⟩
  | (_, place) => { l with place }

/-- **What happens** to a registry that somebody listens to. -/
inductive Act where
  | command (k : RegistryCommand)
  /-- The receiver asks. -/
  | receive

/-- The command, if it is one. -/
def Act.command? : Act → Option RegistryCommand
  | .command k => some k
  | .receive => none

/-- The commands among what happens. -/
def commandsOf (acts : List Act) : List RegistryCommand := acts.filterMap Act.command?

/-- One act. -/
def act (w : Catalog × Listener) : Act → Catalog × Listener
  | .command k => ((w.1.run k).1, w.2)
  | .receive => (w.1, w.2.receive w.1.registry)

/-- **A fresh registry, to which somebody subscribes at once**, and what happens then. -/
def listenTo (acts : List Act) : Catalog × Listener :=
  acts.foldl act (⟨.empty, []⟩, .subscribe .empty)

/-- **The receiver is never further behind than changes are kept for it.** -/
def KeepsUp (acts : List Act) : Prop :=
  ∀ before, before <+: acts →
    (listenTo before).1.registry.changes.count ≤
      (listenTo before).2.place + (listenTo before).1.registry.changes.capacity

theorem listenTo_concat (acts : List Act) (a : Act) :
    listenTo (acts ++ [a]) = act (listenTo acts) a := by
  simp [listenTo]

theorem commandsOf_append (acts more : List Act) :
    commandsOf (acts ++ more) = commandsOf acts ++ commandsOf more := List.filterMap_append

/-- Listening changes nothing about what commands do. -/
theorem listenTo_catalog (acts : List Act) :
    (listenTo acts).1 = Catalog.after (commandsOf acts) := by
  induction acts using List.reverseRecOn with
  | nil => rfl
  | append_singleton acts a ih =>
    rw [listenTo_concat, commandsOf_append]
    cases a with
    | command k =>
      have last : commandsOf [.command k] = [k] := rfl
      rw [act, ih, last, Catalog.after_concat]
    | receive =>
      have none : commandsOf [.receive] = [] := rfl
      rw [act, ih, none, List.append_nil]

variable {acts : List Act}

/-- **Each act adds at most one change.** -/
theorem announced_concat {a : Act}
    (declared : ∀ f, .widget f ∈ asked (commandsOf acts) → f.IsDeclared) :
    ∃ news, news.length ≤ 1 ∧ (listenTo (acts ++ [a])).1.registry.announced =
      (listenTo acts).1.registry.announced ++ news := by
  rw [listenTo_concat]
  cases a with
  | receive => exact ⟨[], Nat.zero_le _, (List.append_nil _).symm⟩
  | command k =>
    rw [act, listenTo_catalog]
    obtain ⟨news, more, announces, -⟩ := Catalog.reports (Catalog.accounts_after declared)
      (Catalog.consistent_after declared) k
    exact ⟨news, announces.single, more⟩

/-- **A receiver that keeps up has heard all changes up to its place.** -/
theorem heard_listenTo (declared : ∀ f, .widget f ∈ asked (commandsOf acts) → f.IsDeclared)
    (keepsUp : KeepsUp acts) :
    (listenTo acts).2.place ≤ (listenTo acts).1.registry.announced.length ∧
      (listenTo acts).2.heard =
        (listenTo acts).1.registry.announced.take (listenTo acts).2.place := by
  induction acts using List.reverseRecOn with
  | nil => exact ⟨Nat.le_refl _, rfl⟩
  | append_singleton acts a ih =>
    have declared' := Catalog.declared_of_append (commandsOf_append acts [a] ▸ declared)
    obtain ⟨within, heard⟩ := ih declared'
      fun before so_far => keepsUp before (so_far.trans (List.prefix_append acts [a]))
    cases a with
    | command k =>
      obtain ⟨news, -, more⟩ := announced_concat (a := .command k) declared'
      have listener : (listenTo (acts ++ [.command k])).2 = (listenTo acts).2 := by
        rw [listenTo_concat, act]
      rw [more, listener, heard, List.length_append, List.take_append_of_le_length within]
      exact ⟨by omega, rfl⟩
    | receive =>
      have kept := keepsUp acts (List.prefix_append acts [.receive])
      have registry : (listenTo (acts ++ [.receive])).1 = (listenTo acts).1 := by
        rw [listenTo_concat, act]
      have listener : (listenTo (acts ++ [.receive])).2 =
          (listenTo acts).2.receive (listenTo acts).1.registry := by
        rw [listenTo_concat, act]
      rw [registry, listener, Listener.receive, Journal.receive_of_kept kept]
      cases next : (listenTo acts).1.registry.changes.entries.toList[(listenTo acts).2.place]? with
      | none => exact ⟨within, heard⟩
      | some change =>
        have inside := (List.getElem?_eq_some_iff.mp next).1
        refine ⟨inside, ?_⟩
        change _ ++ [change] = _
        rw [heard, List.take_add_one, Registry.announced, next]
        rfl

/-- Every beginning of the changes was all of them at an earlier moment. -/
theorem exists_prefix_announced
    (declared : ∀ f, .widget f ∈ asked (commandsOf acts) → f.IsDeclared) {n : Nat}
    (within : n ≤ (listenTo acts).1.registry.announced.length) :
    ∃ earlier, earlier <+: acts ∧ (listenTo earlier).1.registry.announced =
      (listenTo acts).1.registry.announced.take n := by
  induction acts using List.reverseRecOn with
  | nil =>
    refine ⟨[], List.prefix_refl _, ?_⟩
    have nothing : (listenTo []).1.registry.announced = [] := rfl
    rw [nothing, List.take_nil]
  | append_singleton acts a ih =>
    have declared' := Catalog.declared_of_append (commandsOf_append acts [a] ▸ declared)
    obtain ⟨news, single, more⟩ := announced_concat (a := a) declared'
    by_cases before : n ≤ (listenTo acts).1.registry.announced.length
    · obtain ⟨earlier, so_far, same⟩ := ih declared' before
      refine ⟨earlier, so_far.trans (List.prefix_append acts [a]), ?_⟩
      rw [same, more, List.take_append_of_le_length before]
    · refine ⟨acts ++ [a], List.prefix_refl _, ?_⟩
      rw [more, List.length_append] at within
      rw [List.take_of_length_le]
      rw [more, List.length_append]
      omega

/-! ## 6. The theorem -/

open Catalog in
/-- **The journal of a registry.**  Whatever is registered, accepted or refused, and whatever is
removed or chosen, in any order: each command announces what it adds or removes and nothing else
(`Catalog.Announces`).  A receiver that subscribes to the fresh registry and keeps up loses nothing:
what it has heard, with what waits for it, tells the names of the model factories, the widget
factories and the file types in their order; and what it has heard alone tells what they were at an
earlier moment. -/
theorem changes_replay (acts : List Act)
    (declared : ∀ f, .widget f ∈ asked (commandsOf acts) → f.IsDeclared) (keepsUp : KeepsUp acts) :
    let registry := (listenTo acts).1.registry
    let listener := (listenTo acts).2
    (∃ waiting, registry.changes.receiveAll listener.place = waiting.map .value ∧
      ∀ kind, (listener.heard ++ waiting).foldl (replay kind) [] = registry.namesOf kind) ∧
    (∃ earlier, earlier <+: acts ∧ ∀ kind,
      listener.heard.foldl (replay kind) [] = (listenTo earlier).1.registry.namesOf kind) ∧
    ∀ before k rest, commandsOf acts = before ++ k :: rest →
      ∃ news, ((after before).run k).1.registry.announced =
          (after before).registry.announced ++ news ∧
        (after before).Announces (asked before) k news := by
  intro registry listener
  obtain ⟨within, heard⟩ := heard_listenTo declared keepsUp
  have whole : ∀ kind, registry.announced.foldl (replay kind) [] = registry.namesOf kind := by
    intro kind
    change (listenTo acts).1.registry.announced.foldl _ _ = (listenTo acts).1.registry.namesOf kind
    rw [listenTo_catalog]
    exact replay_after declared kind
  refine ⟨⟨registry.announced.drop listener.place, ?_, fun kind => ?_⟩, ?_, ?_⟩
  · have within' : listener.place ≤ registry.changes.count := by
      rwa [Journal.count, ← Array.length_toList]
    exact Journal.receiveAll_of_kept within' (keepsUp acts (List.prefix_refl acts))
  · have all : listener.heard ++ registry.announced.drop listener.place = registry.announced := by
      rw [heard]
      exact List.take_append_drop _ _
    rw [all, whole]
  · obtain ⟨earlier, so_far, same⟩ := exists_prefix_announced declared within
    refine ⟨earlier, so_far, fun kind => ?_⟩
    have declared' : ∀ f, .widget f ∈ asked (commandsOf earlier) → f.IsDeclared := by
      obtain ⟨rest, rfl⟩ := so_far
      exact declared_of_append (commandsOf_append earlier rest ▸ declared)
    rw [heard, ← same, listenTo_catalog]
    exact replay_after declared' kind
  · intro before k rest split
    have declared' := declared_of_append (split ▸ declared)
    obtain ⟨news, more, announces, -⟩ :=
      reports (accounts_after declared') (consistent_after declared') k
    exact ⟨news, more, announces⟩

/-- The sample commands, to which somebody listens now and then. -/
def sampleActs : List Act :=
  (sampleCommands.take 2).map .command ++ [.receive] ++ (sampleCommands.drop 2).map .command ++
    [.receive, .receive]

/-- The name was freed and taken again in another spelling, and the receiver has not heard of the
last change yet. -/
theorem changes_replay_sample :
    let registry := (listenTo sampleActs).1.registry
    KeepsUp sampleActs ∧
    registry.announced = [⟨true, .modelFactory, "text"⟩, ⟨true, .widgetFactory, "Plain"⟩,
      ⟨false, .widgetFactory, "Plain"⟩, ⟨true, .widgetFactory, "PLAIN"⟩] ∧
    ∃ waiting, registry.changes.receiveAll (listenTo sampleActs).2.place = waiting.map .value ∧
      ((listenTo sampleActs).2.heard ++ waiting).foldl (replay .widgetFactory) [] =
        registry.namesOf .widgetFactory := by
  have declared : ∀ f, .widget f ∈ asked (commandsOf sampleActs) → f.IsDeclared := by
    have entries : asked (commandsOf sampleActs) = [.model .text, .widget (sampleView "Plain"),
        .widget (sampleView "plain"), .widget (sampleView "PLAIN")] := rfl
    simp only [entries, List.mem_cons, List.not_mem_nil, Entry.widget.injEq, reduceCtorEq, or_false,
      false_or]
    rintro f (rfl | rfl | rfl) <;> exact .asDefaultFor _ (.serving _ (.create _ _ none))
  have keepsUp : KeepsUp sampleActs := by
    have near : ∀ before ∈ sampleActs.inits, (listenTo before).1.registry.changes.count ≤
        (listenTo before).2.place + (listenTo before).1.registry.changes.capacity := by
      decide +kernel
    exact fun before so_far => near before (List.mem_inits _ _ |>.mpr so_far)
  obtain ⟨⟨waiting, received, names⟩, -, -⟩ := changes_replay sampleActs declared keepsUp
  exact ⟨keepsUp, by decide +kernel, waiting, received, names .widgetFactory⟩

end Host

end Folio
