/-
# Registering and removing entries

An entry is a factory of models, a factory of widgets or a file type.  Its slot is its kind and its
name up to letter case, and no two entries of a registry share a slot.  To register an entry either
changes nothing or puts it last among the entries of its kind; to use a handle leaves out the one
entry that has the slot, with everything that names it, and nothing else.
-/
import Folio.Proofs.Registry.Consistency

namespace Folio

/-! ## 1. Entries -/

/-- **An entry of a registry.** -/
inductive Entry where
  | model (factory : ModelFactory)
  | widget (factory : WidgetFactory)
  | fileType (fileType : FileType)
  deriving DecidableEq

namespace Entry

def kind : Entry → EntryKind
  | .model _ => .modelFactory
  | .widget _ => .widgetFactory
  | .fileType _ => .fileType

def name : Entry → String
  | .model f => f.name
  | .widget f => f.name
  | .fileType t => t.name

/-- The name, up to letter case. -/
def key (e : Entry) : String := Text.lower e.name

/-- The handle that a registration of the entry gives. -/
def handle (e : Entry) : Handle := ⟨e.kind, e.key, e.name⟩

/-- What no two entries of a registry have in common. -/
def slot (e : Entry) : EntryKind × String := (e.kind, e.key)

/-- Entries of one kind are told apart by the key. -/
theorem slot_bne {e x : Entry} (hk : x.kind = e.kind) : (x.slot != e.slot) = (x.key != e.key) := by
  rw [Bool.eq_iff_iff]
  simp [slot, hk]

/-- The entry is a widget factory of that key. -/
def isWidget : Entry → String → Bool
  | .widget f, key => Text.lower f.name == key
  | _, _ => false

end Entry

/-- **Registers an entry.** -/
def Registry.register (r : Registry) : Entry → Registry × Registration
  | .model f => r.addModel f
  | .widget f => r.addWidget f
  | .fileType t => r.addFileType t

namespace RegistryTables

/-- The entries of a kind. -/
def entriesOf (t : RegistryTables) : EntryKind → List Entry
  | .modelFactory => t.models.values.map .model
  | .widgetFactory => t.widgets.values.map .widget
  | .fileType => t.fileTypes.map .fileType

/-- **All entries.** -/
def entries (t : RegistryTables) : List Entry :=
  t.entriesOf .modelFactory ++ t.entriesOf .widgetFactory ++ t.entriesOf .fileType

/-- **One entry is removed and nothing else**: the other entries stay in their order, and what goes
with the entry is what names it. -/
structure Removes (e : Entry) (t t' : RegistryTables) : Prop where
  entries : t'.entries = t.entries.erase e
  globalDefault : t'.globalDefault = t.globalDefault.filter (!e.isWidget ·)
  defaults : t'.defaults.entries = t.defaults.entries.filter (!e.isWidget ·.2)
  overrides : t'.overrides.entries = t.overrides.entries.filter (!e.isWidget ·.2)
  candidates : ∀ x, (t'.candidates.get? x).getD [] =
    ((t.candidates.get? x).getD []).filter (!e.isWidget ·)

variable {t : RegistryTables}

theorem mem_entries {e : Entry} : e ∈ t.entries ↔ e ∈ t.entriesOf e.kind := by
  cases e <;> simp [entries, entriesOf, Entry.kind]

theorem kind_of_mem {e : Entry} {kind : EntryKind} (h : e ∈ t.entriesOf kind) : e.kind = kind := by
  cases kind <;> simp only [entriesOf, List.mem_map] at h <;> obtain ⟨_, _, rfl⟩ := h <;> rfl

/-- The names under which the entries of a kind are kept. -/
def keysOf (t : RegistryTables) : EntryKind → List String
  | .modelFactory => t.models.keys
  | .widgetFactory => t.widgets.keys
  | .fileType => t.fileTypes.map fun f => Text.lower f.name

theorem keysOf_eq (h : t.Consistent) (kind : EntryKind) :
    t.keysOf kind = (t.entriesOf kind).map Entry.key := by
  cases kind with
  | modelFactory =>
    simp only [keysOf, entriesOf, Table.keys, Table.values, List.map_map]
    exact List.map_congr_left h.models_named
  | widgetFactory =>
    simp only [keysOf, entriesOf, Table.keys, Table.values, List.map_map]
    exact List.map_congr_left h.widgets_named
  | fileType =>
    simp only [keysOf, entriesOf, List.map_map]
    rfl

theorem nodup_keysOf (h : t.Consistent) (kind : EntryKind) : (t.keysOf kind).Nodup := by
  cases kind
  · exact h.models_distinct
  · exact h.widgets_distinct
  · exact h.fileTypes_distinct

theorem nodup_slots_of_kind (h : t.Consistent) (kind : EntryKind) :
    ((t.entriesOf kind).map Entry.slot).Nodup := by
  have hk := nodup_keysOf h kind
  rw [keysOf_eq h kind] at hk
  rw [List.nodup_iff_pairwise_ne, List.pairwise_map] at hk ⊢
  exact hk.imp fun hab hs => hab (Prod.mk.inj hs).2

/-- **No two entries have the same slot.** -/
theorem nodup_slots (h : t.Consistent) : (t.entries.map Entry.slot).Nodup := by
  have kinds {kind : EntryKind} {s : EntryKind × String}
      (hs : s ∈ (t.entriesOf kind).map Entry.slot) : s.1 = kind := by
    obtain ⟨x, hx, rfl⟩ := List.mem_map.mp hs
    exact kind_of_mem hx
  simp only [entries, List.map_append]
  refine List.nodup_append.mpr ⟨List.nodup_append.mpr ⟨nodup_slots_of_kind h _,
    nodup_slots_of_kind h _, ?_⟩, nodup_slots_of_kind h _, ?_⟩
  · rintro a ha b hb rfl
    cases (kinds ha).symm.trans (kinds hb)
  · rintro a ha b hb rfl
    rcases List.mem_append.mp ha with ha | ha <;> cases (kinds ha).symm.trans (kinds hb)

/-- Where slots are distinct, to leave out a slot is to take out its entry. -/
theorem erase_eq_filter_slot {e : Entry} : ∀ {l : List Entry}, (l.map Entry.slot).Nodup → e ∈ l →
    l.erase e = l.filter (·.slot != e.slot)
  | x :: l, hd, he => by
    rw [List.map_cons, List.nodup_cons] at hd
    by_cases hx : x = e
    · subst hx
      have hl : l.filter (·.slot != x.slot) = l :=
        List.filter_eq_self.mpr fun y hy =>
          bne_iff_ne.mpr fun hs => hd.1 (hs ▸ List.mem_map_of_mem hy)
      simp [hl]
    · have he : e ∈ l := (List.mem_cons.mp he).resolve_left (Ne.symm hx)
      have hs : x.slot ≠ e.slot := fun hs => hd.1 (hs ▸ List.mem_map_of_mem he)
      simp [hx, hs, erase_eq_filter_slot hd.2 he]

/-! ## 2. Registering -/

theorem entriesOf_putModel {f : ModelFactory} (kind : EntryKind)
    (free : t.models.contains (Text.lower f.name) = false) :
    (t.putModel (Text.lower f.name) f).entriesOf kind =
      t.entriesOf kind ++ if kind = .modelFactory then [.model f] else [] := by
  cases kind <;> simp [entriesOf, putModel, Table.values, Table.entries_put_of_not_contains f free]

theorem entriesOf_putWidget {f : WidgetFactory} (kind : EntryKind)
    (free : t.widgets.contains (Text.lower f.name) = false) :
    (t.putWidget (Text.lower f.name) f).entriesOf kind =
      t.entriesOf kind ++ if kind = .widgetFactory then [.widget f] else [] := by
  obtain ⟨t', hc, heq⟩ := putWidget_eq t (Text.lower f.name) f
  rw [heq, hc.rest]
  cases kind <;>
    simp [entriesOf, withCandidates, Table.values, Table.entries_put_of_not_contains f free]

end RegistryTables

namespace Registry

open RegistryTables

variable {r : Registry}

/-- **Where a registry finds nothing under a handle, no entry has its slot.** -/
theorem slot_free {e : Entry} (h : r.tables.Consistent) (free : r.isRegistered e.handle = false) :
    e.slot ∉ (r.tables.entriesOf e.kind).map Entry.slot := by
  rintro hs
  obtain ⟨x, hx, hs⟩ := List.mem_map.mp hs
  have hkey : x.key = e.key := (Prod.mk.inj hs).2
  cases e with
  | model f =>
    obtain ⟨g, hg, rfl⟩ := List.mem_map.mp hx
    obtain ⟨d, hd, rfl⟩ := List.mem_map.mp hg
    have hm : d.1 ∈ r.tables.models.keys := List.mem_map_of_mem hd
    rw [h.models_named d hd, show Text.lower d.2.name = Text.lower f.name from hkey,
      Table.mem_keys_iff_contains] at hm
    exact absurd (hm.symm.trans free) (by simp)
  | widget f =>
    obtain ⟨g, hg, rfl⟩ := List.mem_map.mp hx
    obtain ⟨d, hd, rfl⟩ := List.mem_map.mp hg
    have hm : d.1 ∈ r.tables.widgets.keys := List.mem_map_of_mem hd
    rw [h.widgets_named d hd, show Text.lower d.2.name = Text.lower f.name from hkey,
      Table.mem_keys_iff_contains] at hm
    exact absurd (hm.symm.trans free) (by simp)
  | fileType f =>
    obtain ⟨g, hg, rfl⟩ := List.mem_map.mp hx
    have hn : r.tables.findFileType? (Text.lower f.name) = none :=
      Option.isNone_iff_eq_none.mp (Option.isSome_eq_false_iff.mp free)
    exact findFileType?_eq_none hn (List.mem_map.mpr ⟨g, hg, hkey⟩)

/-- **What registering an entry does**: it is refused and nothing changes, or its name was free and
it comes last among the entries of its kind. -/
theorem register_cases (e : Entry) (h : r.tables.Consistent) :
    (∃ error, r.register e = (r, .rejected error)) ∨
      ((r.register e).2 = .registered e.handle ∧
        e.slot ∉ (r.tables.entriesOf e.kind).map Entry.slot ∧
        ∀ kind, (r.register e).1.tables.entriesOf kind =
          r.tables.entriesOf kind ++ if kind = e.kind then [e] else []) := by
  cases e with
  | model f =>
    simp only [register, addModel]
    split
    · exact .inl ⟨_, rfl⟩
    · split
      · exact .inl ⟨_, rfl⟩
      · next hf =>
        have free : r.tables.models.contains (Text.lower f.name) = false := by simpa using hf
        exact .inr ⟨rfl, slot_free h free, fun kind => entriesOf_putModel kind free⟩
  | widget f =>
    simp only [register, addWidget]
    split
    · exact .inl ⟨_, rfl⟩
    · split
      · exact .inl ⟨_, rfl⟩
      · next hf =>
        have free : r.tables.widgets.contains (Text.lower f.name) = false := by simpa using hf
        exact .inr ⟨rfl, slot_free h free, fun kind => entriesOf_putWidget kind free⟩
  | fileType f =>
    simp only [register, addFileType]
    split
    · exact .inl ⟨_, rfl⟩
    · split
      · exact .inl ⟨_, rfl⟩
      · next hf =>
        have free : (r.tables.findFileType? (Text.lower f.name)).isSome = false := by simpa using hf
        refine .inr ⟨rfl, slot_free h free, fun kind => ?_⟩
        cases kind <;> simp [entriesOf, accept, Entry.kind]

/-- **A refused registration changes nothing.** -/
theorem register_rejected {e : Entry} {error : RegistrationError} (h : r.tables.Consistent)
    (he : (r.register e).2 = .rejected error) : (r.register e).1 = r := by
  rcases register_cases e h with ⟨_, hr⟩ | ⟨hr, _⟩
  · rw [hr]
  · rw [hr] at he
    cases he

theorem consistent_register {e : Entry} (declared : ∀ f, e = .widget f → f.IsDeclared)
    (h : r.tables.Consistent) : (r.register e).1.tables.Consistent := by
  cases e with
  | model f => exact consistent_addModel f h
  | widget f => exact consistent_addWidget (declared f rfl) h
  | fileType f => exact consistent_addFileType f h

/-- Choosing a default leaves the entries. -/
theorem entriesOf_setDefault {r' : Registry} {extension : String} {factory : Option String}
    (hr : r.setDefault extension factory = .ok r') (kind : EntryKind) :
    r'.tables.entriesOf kind = r.tables.entriesOf kind := by
  unfold setDefault at hr
  cases factory with
  | none =>
    cases hr
    cases kind <;> rfl
  | some name =>
    dsimp only at hr
    split at hr
    · cases hr
    · split at hr
      · cases hr
        cases kind <;> rfl
      · cases hr

/-! ## 3. Removing -/

/-- Entries of another kind do not have the slot. -/
theorem filter_slot_of_ne {t : RegistryTables} {e : Entry} {kind : EntryKind} (hk : kind ≠ e.kind) :
    (t.entriesOf kind).filter (·.slot != e.slot) = t.entriesOf kind := by
  refine List.filter_eq_self.mpr fun x hx => bne_iff_ne.mpr fun hs => hk ?_
  rw [← kind_of_mem hx]
  exact (Prod.mk.inj hs).1

theorem entriesOf_tablesWithout (h : r.tables.Consistent) (e : Entry) (kind : EntryKind) :
    (r.tablesWithout e.handle).entriesOf kind =
      (r.tables.entriesOf kind).filter (·.slot != e.slot) := by
  by_cases hk : kind = e.kind
  · subst hk
    cases e with
    | model f =>
      simp only [tablesWithout, Entry.handle, Entry.kind, entriesOf, eraseModel, Table.erase,
        Table.values, List.filter_map, List.map_map]
      refine congrArg _ (List.filter_congr fun x hx => ?_)
      rw [h.models_named x hx]
      exact (Entry.slot_bne (e := .model f) (x := .model x.2) rfl).symm
    | widget f =>
      simp only [tablesWithout, Entry.handle, Entry.kind, entriesOf, eraseWidget, Table.erase,
        Table.values, List.filter_map, List.map_map]
      refine congrArg _ (List.filter_congr fun x hx => ?_)
      rw [h.widgets_named x hx]
      exact (Entry.slot_bne (e := .widget f) (x := .widget x.2) rfl).symm
    | fileType f =>
      simp only [tablesWithout, Entry.handle, Entry.kind, entriesOf, eraseFileType, List.filter_map]
      refine congrArg _ (List.filter_congr fun x _ => ?_)
      exact (Entry.slot_bne (e := .fileType f) (x := .fileType x) rfl).symm
  · rw [filter_slot_of_ne hk]
    cases e <;> cases kind <;> first | exact absurd rfl hk | rfl

/-- **Removing leaves the entries that do not have the slot of the handle.** -/
theorem entriesOf_unregister (h : r.tables.Consistent) (e : Entry) (kind : EntryKind) :
    (r.unregister e.handle).tables.entriesOf kind =
      (r.tables.entriesOf kind).filter (·.slot != e.slot) := by
  unfold unregister
  split
  · exact entriesOf_tablesWithout h e kind
  · next hr =>
    by_cases hk : kind = e.kind
    · subst hk
      refine (List.filter_eq_self.mpr fun x hx => bne_iff_ne.mpr fun hs => ?_).symm
      exact slot_free h (Bool.not_eq_true _ ▸ hr) (hs ▸ List.mem_map_of_mem hx)
    · rw [filter_slot_of_ne hk]

/-- What is there can be removed. -/
theorem isRegistered_of_mem (h : r.tables.Consistent) {e : Entry} (he : e ∈ r.tables.entries) :
    r.isRegistered e.handle = true := by
  cases hr : r.isRegistered e.handle with
  | true => rfl
  | false => exact absurd (List.mem_map_of_mem (mem_entries.mp he)) (slot_free h hr)

/-- An entry that is no widget factory leaves alone what resolves extensions. -/
theorem removes_of_not_widget {e : Entry} {t t' : RegistryTables}
    (he : ∀ key, e.isWidget key = false) (hs : t'.entries = t.entries.erase e)
    (rest : (t'.globalDefault, t'.defaults, t'.overrides, t'.candidates) =
      (t.globalDefault, t.defaults, t.overrides, t.candidates)) : Removes e t t' := by
  simp only [Prod.mk.injEq] at rest
  obtain ⟨hg, hd, ho, hc⟩ := rest
  have keeps {α : Type} (l : List α) : l.filter (fun _ => !false) = l :=
    List.filter_eq_self.mpr fun _ _ => rfl
  refine ⟨hs, ?_, ?_, ?_, fun x => ?_⟩ <;> simp only [he, hg, hd, ho, hc, keeps]
  cases t.globalDefault <;> rfl

/-- **Using the handle of an entry that is there removes this entry and nothing else.** -/
theorem removes_unregister (h : r.tables.Consistent) {e : Entry} (he : e ∈ r.tables.entries) :
    Removes e r.tables (r.unregister e.handle).tables := by
  have hs : (r.unregister e.handle).tables.entries = r.tables.entries.erase e := by
    rw [erase_eq_filter_slot (nodup_slots h) he]
    simp only [entries, entriesOf_unregister h, List.filter_append]
  have hu : (r.unregister e.handle).tables = r.tablesWithout e.handle := by
    rw [unregister, if_pos (isRegistered_of_mem h he)]
  rw [hu] at hs ⊢
  cases e with
  | model f => exact removes_of_not_widget (fun _ => rfl) hs rfl
  | fileType f => exact removes_of_not_widget (fun _ => rfl) hs rfl
  | widget f =>
    have named (key : String) : (!(Entry.widget f).isWidget key) = (key != Text.lower f.name) := by
      rw [Entry.isWidget, bne, Bool.beq_comm]
    refine ⟨hs, ?_, ?_, ?_, fun x => ?_⟩ <;> simp only [named]
    · show (if r.tables.globalDefault = some (Text.lower f.name) then _ else _) = _
      cases hg : r.tables.globalDefault with
      | none => rfl
      | some key => by_cases hk : key = Text.lower f.name <;> simp [hk, Option.filter_some]
    · rfl
    · rfl
    · exact getD_candidates_eraseWidget _ x h.candidates_distinct

end Registry

end Folio
