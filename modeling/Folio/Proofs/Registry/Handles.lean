/-
# What handles of a registry remove

A handle finds its entry again by the kind and the name, and it may be used at any later time.  It
still removes no other entry than the one it was given out for: as long as the handle is unused the
entry is there, so the name is not free, and once it is used it does nothing any more.

`Accounts` is the invariant behind this.  It tells the entries of a registry from the registrations
that were asked for and the handles in the hands of the host: of each kind there are exactly the
entries whose handle still removes something, in the order of registration.
-/
import Folio.Proofs.Registry.Entries
import Folio.Host.Catalog
import Mathlib.Data.List.Induction

namespace Folio.Host

open RegistryTables

/-! ## 1. What is asked for and what stands -/

/-- The entry that a command asks to be registered. -/
def RegistryCommand.entry? : RegistryCommand → Option Entry
  | .addModel f => some (.model f)
  | .addWidget f => some (.widget f)
  | .addFileType t => some (.fileType t)
  | _ => none

/-- **The entries that were asked to be registered**, in this order; a place in the list is the
label of the handle. -/
def asked (commands : List RegistryCommand) : List Entry :=
  commands.filterMap RegistryCommand.entry?

/-- The handle removes something when it is used. -/
def HeldHandle.isLive : HeldHandle → Bool
  | .live _ => true
  | _ => false

/-- **The entries whose handles still remove something.** -/
def standing (asked : List Entry) (held : List HeldHandle) : List Entry :=
  ((asked.zip held).filter (·.2.isLive)).map (·.1)

namespace Catalog

/-- **The catalog after commands** to an empty registry. -/
def after (commands : List RegistryCommand) : Catalog :=
  commands.foldl (fun c k => (c.run k).1) ⟨.empty, []⟩

theorem after_concat (commands : List RegistryCommand) (k : RegistryCommand) :
    after (commands ++ [k]) = ((after commands).run k).1 := by
  simp [after]

/-- **What a command does to the registry and the handles**: it registers an entry, it uses the
handle of one, or it leaves the entries and the handles that remove something as they are. -/
theorem run_cases (c : Catalog) (k : RegistryCommand) :
    (∃ e, k.entry? = some e ∧ (c.run k).1 = (c.keep (c.registry.register e)).1) ∨
      k.entry? = none ∧
        ((∃ i handle, k = .unregister (some i) ∧ c.held[i]? = some (.live handle) ∧
            (c.run k).1 = ⟨c.registry.unregister handle, c.held.set i .used⟩) ∨
          (∃ extension factory registry, c.registry.setDefault extension factory = .ok registry ∧
            (c.run k).1 = { c with registry }) ∨
          (∃ i, k = .unregister (some i) ∧ c.held[i]? = some .inert ∧
            (c.run k).1 = { c with held := c.held.set i .used }) ∨
          (c.run k).1 = c) := by
  cases k with
  | addModel f => exact .inl ⟨_, rfl, rfl⟩
  | addWidget f => exact .inl ⟨_, rfl, rfl⟩
  | addFileType t => exact .inl ⟨_, rfl, rfl⟩
  | unregister label =>
    refine .inr ⟨rfl, ?_⟩
    cases label with
    | none => exact .inr (.inr (.inr rfl))
    | some i =>
      simp only [run, unregister]
      split
      · next handle hi => exact .inl ⟨i, handle, rfl, hi, rfl⟩
      · next hi => exact .inr (.inr (.inl ⟨i, rfl, hi, rfl⟩))
      · exact .inr (.inr (.inr rfl))
      · exact .inr (.inr (.inr rfl))
  | setDefault extension factory =>
    refine .inr ⟨rfl, .inr ?_⟩
    simp only [run]
    split
    · next registry hr => exact .inl ⟨extension, factory, registry, hr, rfl⟩
    · exact .inr (.inr rfl)
  | _ => exact .inr ⟨rfl, .inr (.inr (.inr rfl))⟩

theorem consistent_run {c : Catalog} {k : RegistryCommand} (h : c.registry.tables.Consistent)
    (declared : ∀ f, k.entry? = some (.widget f) → f.IsDeclared) :
    (c.run k).1.registry.tables.Consistent := by
  rcases run_cases c k with ⟨e, he, hr⟩ | ⟨-, hr⟩
  · rw [hr]
    exact Registry.consistent_register (fun f hf => declared f (hf ▸ he)) h
  · rcases hr with ⟨_, _, -, -, hr⟩ | ⟨_, _, _, hs, hr⟩ | ⟨_, -, -, hr⟩ | hr <;> rw [hr]
    · exact Registry.consistent_unregister _ h
    · exact Registry.consistent_setDefault h hs
    · exact h
    · exact h

/-- **The tables agree after any commands.** -/
theorem consistent_after {commands : List RegistryCommand}
    (declared : ∀ f, .widget f ∈ asked commands → f.IsDeclared) :
    (after commands).registry.tables.Consistent := by
  induction commands using List.reverseRecOn with
  | nil => exact consistent_empty
  | append_singleton commands k ih =>
    rw [after_concat]
    refine consistent_run (ih fun f hf => declared f ?_) fun f hf => declared f ?_
    · simp [asked] at hf ⊢
      exact .inl hf
    · simp [asked, hf]

end Catalog

/-! ## 2. Standing entries when handles change -/

theorem standing_cons (e : Entry) (es : List Entry) (h : HeldHandle) (hs : List HeldHandle) :
    standing (e :: es) (h :: hs) = if h.isLive then e :: standing es hs else standing es hs := by
  cases hl : h.isLive <;> simp [standing, hl]

/-- A registration comes last. -/
theorem standing_concat {es : List Entry} {hs : List HeldHandle} (hl : es.length = hs.length)
    (e : Entry) (h : HeldHandle) :
    standing (es ++ [e]) (hs ++ [h]) = standing es hs ++ if h.isLive then [e] else [] := by
  cases hh : h.isLive <;> simp [standing, List.zip_append hl, hh]

/-- Using a handle that does nothing leaves what stands. -/
theorem standing_set_inert : ∀ {es : List Entry} {hs : List HeldHandle} {i : Nat},
    hs[i]? = some .inert → standing es (hs.set i .used) = standing es hs
  | [], _, _, _ => by simp [standing]
  | e :: es, h :: hs, 0, hi => by
    obtain rfl : h = .inert := by simpa using hi
    rfl
  | e :: es, h :: hs, i + 1, hi => by
    rw [List.set_cons_succ, standing_cons, standing_cons, standing_set_inert (by simpa using hi)]

theorem mem_standing : ∀ {es : List Entry} {hs : List HeldHandle} {i : Nat} {e : Entry}
    {handle : Handle}, es[i]? = some e → hs[i]? = some (.live handle) → e ∈ standing es hs
  | e :: es, h :: hs, 0, _, _, he, hi => by
    obtain rfl : e = _ := by simpa using he
    obtain rfl : h = _ := by simpa using hi
    simp [standing_cons, HeldHandle.isLive]
  | x :: es, h :: hs, i + 1, e, handle, he, hi => by
    have he : es[i]? = some e := by simpa using he
    have hi : hs[i]? = some (.live handle) := by simpa using hi
    have ih : e ∈ standing es hs := mem_standing he hi
    rw [standing_cons]
    split
    · exact List.mem_cons_of_mem _ ih
    · exact ih

/-- **Using a handle that removes something takes its slot out of what stands.** -/
theorem standing_set_live : ∀ {es : List Entry} {hs : List HeldHandle} {i : Nat} {e : Entry}
    {handle : Handle}, ((standing es hs).map Entry.slot).Nodup → es[i]? = some e →
    hs[i]? = some (.live handle) →
    standing es (hs.set i .used) = (standing es hs).filter (·.slot != e.slot)
  | e :: es, h :: hs, 0, _, _, hd, he, hi => by
    obtain rfl : e = _ := by simpa using he
    obtain rfl : h = _ := by simpa using hi
    rw [standing_cons, if_pos (by rfl), List.map_cons, List.nodup_cons] at hd
    have hl : (standing es hs).filter (·.slot != e.slot) = standing es hs :=
      List.filter_eq_self.mpr fun y hy =>
        bne_iff_ne.mpr fun hs => hd.1 (hs ▸ List.mem_map_of_mem hy)
    simp [standing_cons, HeldHandle.isLive, hl]
  | x :: es, h :: hs, i + 1, e, handle, hd, he, hi => by
    have he : es[i]? = some e := by simpa using he
    have hi : hs[i]? = some (.live handle) := by simpa using hi
    rw [List.set_cons_succ, standing_cons, standing_cons]
    rw [standing_cons] at hd
    split
    · next hl =>
      rw [if_pos hl, List.map_cons, List.nodup_cons] at hd
      have hx : x.slot ≠ e.slot := fun hs => hd.1 (hs ▸ List.mem_map_of_mem (mem_standing he hi))
      simp [hx, standing_set_live hd.2 he hi]
    · next hl =>
      rw [if_neg hl] at hd
      exact standing_set_live hd he hi

/-! ## 3. The registry and the handles account for each other -/

/-- **The entries are those whose handles still remove something.** -/
structure Accounts (es : List Entry) (c : Catalog) : Prop where
  length : es.length = c.held.length
  handles : ∀ (i : Nat) (handle : Handle), c.held[i]? = some (HeldHandle.live handle) →
    ∃ e : Entry, es[i]? = some e ∧ handle = e.handle
  distinct : ((standing es c.held).map Entry.slot).Nodup
  entries : ∀ kind,
    c.registry.tables.entriesOf kind = (standing es c.held).filter (·.kind = kind)

namespace Accounts

variable {es : List Entry} {c : Catalog}

theorem start : Accounts [] ⟨.empty, []⟩ where
  length := rfl
  handles := fun _ _ h => by simp at h
  distinct := List.nodup_nil
  entries := fun kind => by cases kind <;> rfl

/-- The handles after another registration. -/
theorem handles_concat (h : Accounts es c) {e : Entry} {last : HeldHandle}
    (hl : ∀ handle, last = .live handle → handle = e.handle) (i : Nat) (handle : Handle)
    (hi : (c.held ++ [last])[i]? = some (HeldHandle.live handle)) :
    ∃ e' : Entry, (es ++ [e])[i]? = some e' ∧ handle = e'.handle := by
  rcases Nat.lt_or_ge i c.held.length with hlt | hge
  · rw [List.getElem?_append_left hlt] at hi
    rw [List.getElem?_append_left (h.length ▸ hlt)]
    exact h.handles i handle hi
  · rw [List.getElem?_append_right hge, List.getElem?_singleton] at hi
    rw [List.getElem?_append_right (h.length ▸ hge), List.getElem?_singleton, h.length]
    split at hi
    · next h0 => exact ⟨e, if_pos h0, hl handle (Option.some.inj hi)⟩
    · cases hi

/-- The handles after one of them was used. -/
theorem handles_set (h : Accounts es c) (i j : Nat) (handle : Handle)
    (hj : (c.held.set i .used)[j]? = some (HeldHandle.live handle)) :
    ∃ e : Entry, es[j]? = some e ∧ handle = e.handle := by
  rw [List.getElem?_set] at hj
  split at hj
  · split at hj <;> cases hj
  · exact h.handles j handle hj

theorem mem_entries (h : Accounts es c) {e : Entry} :
    e ∈ c.registry.tables.entries ↔ e ∈ standing es c.held := by
  rw [RegistryTables.mem_entries, h.entries]
  simp

/-- **A registration that is accepted comes last.** -/
theorem register (h : Accounts es c) (hc : c.registry.tables.Consistent) (e : Entry) :
    Accounts (es ++ [e]) (c.keep (c.registry.register e)).1 := by
  rcases Registry.register_cases e hc with ⟨error, hr⟩ | ⟨hr, free, hs⟩
  · have hk : (c.keep (c.registry.register e)).1 = ⟨c.registry, c.held ++ [.inert]⟩ := by
      rw [hr]
      rfl
    have hst : standing (es ++ [e]) (c.held ++ [.inert]) = standing es c.held := by
      simp [standing_concat h.length, HeldHandle.isLive]
    rw [hk]
    exact ⟨by simp [h.length], handles_concat h (fun _ hl => nomatch hl),
      hst ▸ h.distinct, hst ▸ h.entries⟩
  · have hk : (c.keep (c.registry.register e)).1 =
        ⟨(c.registry.register e).1, c.held ++ [.live e.handle]⟩ := by
      simp [Catalog.keep, hr, Registration.handle?]
    have hst : standing (es ++ [e]) (c.held ++ [.live e.handle]) = standing es c.held ++ [e] := by
      simp [standing_concat h.length, HeldHandle.isLive]
    rw [hk]
    refine ⟨by simp [h.length], handles_concat h fun handle hl => ?_, ?_, fun kind => ?_⟩
    · exact (HeldHandle.live.inj hl).symm
    · rw [hst, List.map_append]
      refine List.nodup_append.mpr ⟨h.distinct, by simp, ?_⟩
      rintro s hx t ht rfl
      obtain ⟨x, hx, hxs⟩ := List.mem_map.mp hx
      rw [List.map_singleton, List.mem_singleton] at ht
      have hxe : x.slot = e.slot := hxs.trans ht
      refine free (hxe ▸ List.mem_map_of_mem ?_)
      rw [h.entries]
      exact List.mem_filter.mpr ⟨hx, by simpa using (Prod.mk.inj hxe).1⟩
    · rw [hst, hs, h.entries, List.filter_append]
      by_cases hk : kind = e.kind
      · simp [hk]
      · simp [hk, Ne.symm hk]

/-- **A handle that is used takes its entry out.** -/
theorem unregister (h : Accounts es c) (hc : c.registry.tables.Consistent) {i : Nat}
    {handle : Handle} (hi : c.held[i]? = some (.live handle)) :
    Accounts es ⟨c.registry.unregister handle, c.held.set i .used⟩ := by
  obtain ⟨e, he, rfl⟩ := h.handles i handle hi
  have hst : standing es (c.held.set i .used) = (standing es c.held).filter (·.slot != e.slot) :=
    standing_set_live h.distinct he hi
  refine ⟨by simp [h.length], handles_set h i, ?_, fun kind => ?_⟩
  · rw [hst]
    exact h.distinct.sublist (List.filter_sublist.map _)
  · rw [hst, Registry.entriesOf_unregister hc, h.entries, List.filter_filter, List.filter_filter]
    simp only [Bool.and_comm]

theorem use_inert (h : Accounts es c) {i : Nat} (hi : c.held[i]? = some .inert) :
    Accounts es { c with held := c.held.set i .used } := by
  have hst : standing es (c.held.set i .used) = standing es c.held := standing_set_inert hi
  exact ⟨by simp [h.length], handles_set h i, hst ▸ h.distinct, hst ▸ h.entries⟩

/-- **Every command keeps the account.** -/
theorem run (h : Accounts es c) (hc : c.registry.tables.Consistent) (k : RegistryCommand) :
    Accounts (es ++ k.entry?.toList) (c.run k).1 := by
  rcases c.run_cases k with ⟨e, he, hr⟩ | ⟨he, hr⟩
  · rw [hr, he]
    exact h.register hc e
  · rw [he, Option.toList_none, List.append_nil]
    rcases hr with ⟨i, handle, -, hi, hr⟩ | ⟨_, _, registry, hs, hr⟩ | ⟨i, -, hi, hr⟩ | hr <;>
      rw [hr]
    · exact h.unregister hc hi
    · exact { h with
        entries := fun kind => (Registry.entriesOf_setDefault hs kind).trans (h.entries kind) }
    · exact h.use_inert hi
    · exact h

end Accounts

namespace Catalog

variable {commands : List RegistryCommand}

/-- **After any commands the entries are those whose handles still remove something.** -/
theorem accounts_after (declared : ∀ f, .widget f ∈ asked commands → f.IsDeclared) :
    Accounts (asked commands) (after commands) := by
  induction commands using List.reverseRecOn with
  | nil => exact .start
  | append_singleton commands k ih =>
    have declared' : ∀ f, .widget f ∈ asked commands → f.IsDeclared :=
      fun f hf => declared f (by simp [asked] at hf ⊢; exact .inl hf)
    have hk : asked (commands ++ [k]) = asked commands ++ k.entry?.toList := by
      simp only [asked, List.filterMap_append, List.filterMap_cons, List.filterMap_nil]
      cases k.entry? <;> rfl
    rw [after_concat, hk]
    exact (ih declared').run (consistent_after declared') k

/-! ## 4. The handle of a registration -/

theorem run_of_entry {c : Catalog} {k : RegistryCommand} {e : Entry} (he : k.entry? = some e) :
    c.run k = c.keep (c.registry.register e) := by
  cases k <;> cases he <;> rfl

/-- Commands take no label back. -/
theorem length_held_run (c : Catalog) (k : RegistryCommand) :
    c.held.length ≤ (c.run k).1.held.length := by
  rcases c.run_cases k with ⟨e, he, hr⟩ | ⟨-, hr⟩
  · simp [hr, keep]
  · rcases hr with ⟨_, _, -, -, hr⟩ | ⟨_, _, _, -, hr⟩ | ⟨_, -, -, hr⟩ | hr <;> simp [hr]

/-- A handle stays as it is until it is used. -/
theorem held_run {c : Catalog} {k : RegistryCommand} {i : Nat} (hi : i < c.held.length)
    (hk : k ≠ .unregister (some i)) : (c.run k).1.held[i]? = c.held[i]? := by
  rcases c.run_cases k with ⟨e, he, hr⟩ | ⟨-, hr⟩
  · rw [hr]
    exact List.getElem?_append_left hi
  · rcases hr with ⟨j, _, rfl, -, hr⟩ | ⟨_, _, _, -, hr⟩ | ⟨j, rfl, -, hr⟩ | hr <;> rw [hr]
    · exact List.getElem?_set_ne fun hj => hk (congrArg _ (congrArg _ hj))
    · exact List.getElem?_set_ne fun hj => hk (congrArg _ (congrArg _ hj))

/-- A handle can be used once. -/
theorem held_unregister {c : Catalog} {i : Nat} (hi : i < c.held.length) :
    (c.run (.unregister (some i))).1.held[i]? = some .used := by
  simp only [run, unregister]
  split
  · simp [hi]
  · simp [hi]
  · next hu => exact hu
  · next hu => exact absurd (List.getElem?_eq_none_iff.mp hu) (Nat.not_le.mpr hi)

theorem label_eq {c : Catalog} {k : RegistryCommand} {e : Entry} {i : Nat} {handle : Handle}
    (he : k.entry? = some e) (hr : (c.run k).2 = .registration i (.registered handle)) :
    i = c.held.length ∧ (c.registry.register e).2 = .registered handle := by
  rw [run_of_entry he] at hr
  obtain ⟨hl, hreg⟩ := Reply.registration.inj hr
  exact ⟨hl.symm, hreg⟩

/-- **The handle of a registration**, later: it is as it was given out, or it was used. -/
theorem held_after {before rest : List RegistryCommand} {k : RegistryCommand} {e : Entry} {i : Nat}
    {handle : Handle} (he : k.entry? = some e)
    (hr : ((after before).run k).2 = .registration i (.registered handle)) :
    i < (after (before ++ k :: rest)).held.length ∧
      (.unregister (some i) ∉ rest →
        (after (before ++ k :: rest)).held[i]? = some (.live handle)) ∧
      (.unregister (some i) ∈ rest → (after (before ++ k :: rest)).held[i]? = some .used) := by
  induction rest using List.reverseRecOn with
  | nil =>
    obtain ⟨rfl, hreg⟩ := label_eq he hr
    rw [after_concat, run_of_entry he]
    simp [keep, hreg, Registration.handle?]
  | append_singleton rest k' ih =>
    obtain ⟨hi, hlive, hused⟩ := ih
    rw [← List.cons_append, ← List.append_assoc, after_concat]
    refine ⟨Nat.lt_of_lt_of_le hi (length_held_run _ _), fun hn => ?_, fun hm => ?_⟩
    · rw [List.mem_append, not_or, List.mem_singleton] at hn
      rw [held_run hi (Ne.symm hn.2), hlive hn.1]
    · by_cases hk : k' = .unregister (some i)
      · rw [hk]
        exact held_unregister hi
      · rw [held_run hi hk]
        exact hused ((List.mem_append.mp hm).resolve_right fun h =>
          hk (List.mem_singleton.mp h).symm)

end Catalog

/-! ## 5. The theorem -/

open Catalog in
/-- **A registry after any commands.**  Its tables agree with each other; the entries of each kind,
and the names under which they are kept, are those of the registrations whose handles were not used,
in the order of registration; a refused registration changes nothing; and the handle of a
registration removes the entry that was registered and nothing else, once. -/
theorem registry_consistent_handles_exact (commands : List RegistryCommand)
    (declared : ∀ f, .widget f ∈ asked commands → f.IsDeclared) :
    let c := after commands
    let t := c.registry.tables
    t.Consistent ∧
    (∀ kind, t.entriesOf kind = (standing (asked commands) c.held).filter (·.kind = kind) ∧
      t.keysOf kind = (t.entriesOf kind).map Entry.key ∧ (t.keysOf kind).Nodup) ∧
    (∀ e error, (c.registry.register e).2 = .rejected error →
      (c.registry.register e).1 = c.registry) ∧
    ∀ before k rest e i handle, commands = before ++ k :: rest → k.entry? = some e →
      ((after before).run k).2 = .registration i (.registered handle) →
      (.unregister (some i) ∉ rest → e ∈ t.entries ∧
        Removes e t (c.run (.unregister (some i))).1.registry.tables) ∧
      (.unregister (some i) ∈ rest → (c.run (.unregister (some i))).1.registry = c.registry) := by
  have hc := consistent_after declared
  have ha := accounts_after declared
  refine ⟨hc, fun kind => ⟨ha.entries kind, keysOf_eq hc kind, nodup_keysOf hc kind⟩,
    fun e error => Registry.register_rejected hc, ?_⟩
  rintro before k rest e i handle rfl he hr
  obtain ⟨hi, hlive, hused⟩ := @held_after before rest _ _ _ _ he hr
  constructor
  · intro hn
    have hb : Accounts (asked before) (after before) :=
      accounts_after fun f hf => declared f (by simp [asked] at hf ⊢; exact .inl hf)
    obtain ⟨e', he', rfl⟩ := ha.handles i handle (hlive hn)
    obtain rfl : e = e' := by
      rw [(label_eq he hr).1, ← hb.length] at he'
      simpa [asked, he] using he'
    have hm := ha.mem_entries.mpr (mem_standing he' (hlive hn))
    refine ⟨hm, ?_⟩
    simp only [run, unregister, hlive hn]
    exact Registry.removes_unregister hc hm
  · intro hm
    simp only [run, unregister, hused hm]

/-- A factory that shows texts in any file and asks to be the default for notes. -/
def sampleView (name : String) : WidgetFactory :=
  ((WidgetFactory.create name "text").serving [".md", "*"]).asDefaultFor [".md"]

/-- A name is registered, freed by its handle and taken again in another spelling. -/
def sampleCommands : List RegistryCommand :=
  [.addModel .text, .addWidget (sampleView "Plain"), .addWidget (sampleView "plain"),
    .unregister (some 1), .addWidget (sampleView "PLAIN"), .setDefault "csv" (some "Plain")]

theorem registry_consistent_handles_exact_sample :
    let c := Catalog.after sampleCommands
    c.registry.tables.keysOf .widgetFactory = ["plain"] ∧
      c.registry.tables.Consistent ∧
      (c.run (.unregister (some 1))).1.registry = c.registry ∧
      Removes (.widget (sampleView "PLAIN")) c.registry.tables
        (c.run (.unregister (some 3))).1.registry.tables := by
  have hd : ∀ f, .widget f ∈ asked sampleCommands → f.IsDeclared := by
    have ha : asked sampleCommands = [.model .text, .widget (sampleView "Plain"),
        .widget (sampleView "plain"), .widget (sampleView "PLAIN")] := rfl
    simp only [ha, List.mem_cons, List.not_mem_nil, Entry.widget.injEq, reduceCtorEq, or_false,
      false_or]
    rintro f (rfl | rfl | rfl) <;> exact .asDefaultFor _ (.serving _ (.create _ _ none))
  obtain ⟨hc, -, -, hh⟩ := registry_consistent_handles_exact sampleCommands hd
  refine ⟨by decide +kernel, hc, ?_, ?_⟩
  · exact (hh [.addModel .text] (.addWidget (sampleView "Plain")) _ _ 1 _ rfl rfl rfl).2
      (by simp)
  · exact ((hh (sampleCommands.take 4) (.addWidget (sampleView "PLAIN")) _ _ 3 _ rfl rfl rfl).1
      (by simp)).2

end Folio.Host
