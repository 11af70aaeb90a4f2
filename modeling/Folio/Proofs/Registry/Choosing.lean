/-
# The default that the user has chosen

A choice is an entry of the overrides: the normal form of the extension, with the key of a widget
factory.  Nothing but another choice for the same extension and the removal of the factory touches
it (`Chosen`), so it lasts through whatever is registered and removed besides.  As long as it stands
the factory comes first for every spelling of the extension; if the model factory is missing it is
passed over, but the choice is kept, and it counts again once the model factory is there.

The other way around, nothing but resolving looks at a choice.  Commands do the same to a registry
and to the registry without the choice (`run_withoutChoice`), so once the factory is removed, and
the choice with it, nothing tells that it was ever made: what is registered under the name later
does not inherit it.
-/
import Folio.Proofs.Registry.Changes
import Folio.Proofs.Registry.Resolving
import Folio.Proofs.Registry.Undoing

namespace Folio

/-! ## 1. A chosen entry -/

namespace Table

variable {κ α : Type} [DecidableEq κ]

/-- Entries under other keys stay. -/
theorem mem_entries_put_of_ne {t : Table κ α} {e : κ × α} (he : e ∈ t.entries) {key : κ}
    (hne : e.1 ≠ key) (value : α) : e ∈ (t.put key value).entries := by
  unfold put
  split
  · exact List.mem_map.mpr ⟨e, he, if_neg hne⟩
  · exact List.mem_append_left _ he

/-- Putting and taking out do not mind each other under different keys. -/
theorem erase_put_of_ne (t : Table κ α) {key key' : κ} (hne : key' ≠ key) (value : α) :
    (t.put key' value).erase key = (t.erase key).put key' value := by
  have hc : (t.erase key).contains key' = t.contains key' := by
    rw [contains_eq_isSome_get?, contains_eq_isSome_get?, get?_erase, if_neg hne]
  unfold put
  rw [hc]
  split
  · simp only [erase]
    congr 1
    rw [List.filter_map]
    congr 1
    refine List.filter_congr fun e _ => ?_
    by_cases hk : e.1 = key' <;> simp [hk]
  · simp [erase, hne]

theorem erase_erase (t : Table κ α) (key key' : κ) :
    (t.erase key').erase key = (t.erase key).erase key' := by
  simp [erase, List.filter_filter, Bool.and_comm]

theorem keepValues_erase (t : Table κ α) (key : κ) (keep : α → Bool) :
    (t.erase key).keepValues keep = (t.keepValues keep).erase key := by
  simp [erase, keepValues, List.filter_filter, Bool.and_comm]

end Table

/-- **The factory of a key is chosen for an extension**, and no other one is. -/
structure Chosen (overrides : Table String String) (extension key : String) : Prop where
  there : (extension, key) ∈ overrides.entries
  only : ∀ e ∈ overrides.entries, e.1 = extension → e.2 = key

namespace Chosen

variable {o : Table String String} {extension key : String}

theorem get? (h : Chosen o extension key) : o.get? extension = some key := by
  have hm : extension ∈ o.keys := List.mem_map_of_mem h.there
  rw [Table.mem_keys_iff_contains, Table.contains_eq_isSome_get?] at hm
  obtain ⟨k, hk⟩ := Option.isSome_iff_exists.mp hm
  exact hk.trans (congrArg some (h.only _ (Table.mem_of_get? hk) rfl))

theorem put_self (o : Table String String) (extension key : String) :
    Chosen (o.put extension key) extension key where
  there := Table.mem_of_get? (by rw [Table.get?_put, if_pos rfl])
  only e he hk := by
    by_contra hne
    have hm : e ∈ (o.put extension key).entries.filter (·.2 != key) :=
      List.mem_filter.mpr ⟨he, bne_iff_ne.mpr hne⟩
    rw [Table.filter_put (by simp)] at hm
    exact absurd hk (by simpa using (List.mem_filter.mp hm).2)

/-- What is kept of the table keeps the choice. -/
theorem filter (h : Chosen o extension key) {keep : String × String → Bool}
    (hk : keep (extension, key) = true) : Chosen ⟨o.entries.filter keep⟩ extension key where
  there := List.mem_filter.mpr ⟨h.there, hk⟩
  only e he := h.only e (List.mem_filter.mp he).1

theorem put_other (h : Chosen o extension key) {extension' : String} (hne : extension' ≠ extension)
    (key' : String) : Chosen (o.put extension' key') extension key where
  there := Table.mem_entries_put_of_ne h.there hne.symm key'
  only e he hk := by
    rcases Table.mem_entries_put he with rfl | he
    · exact absurd hk hne
    · exact h.only e he hk

/-- If the factory is taken out nothing is chosen for the extension any more. -/
theorem erase_keepValues (h : Chosen o extension key) :
    (o.keepValues (· != key)).erase extension = o.keepValues (· != key) := by
  rw [Table.erase, List.filter_eq_self.mpr]
  rintro e he
  obtain ⟨hm, hv⟩ := List.mem_filter.mp he
  exact bne_iff_ne.mpr fun hk => bne_iff_ne.mp hv (h.only e hm hk)

end Chosen

/-! ## 2. The registry without a choice -/

namespace RegistryTables

/-- The tables with other choices of defaults. -/
def withOverrides (t : RegistryTables) (overrides : Table String String) : RegistryTables :=
  { t with overrides }

theorem claimDefault_withOverrides (key : String) (f : WidgetFactory) (o : Table String String)
    (t : RegistryTables) (extension : String) :
    claimDefault key f (t.withOverrides o) extension =
      (claimDefault key f t extension).withOverrides o := by
  unfold claimDefault
  split
  · rfl
  · split <;> rfl

theorem putWidget_withOverrides (t : RegistryTables) (o : Table String String) (key : String)
    (f : WidgetFactory) :
    (t.withOverrides o).putWidget key f = (t.putWidget key f).withOverrides o := by
  have hclaims : f.defaultFor.foldl (claimDefault key f) (t.withOverrides o) =
      (f.defaultFor.foldl (claimDefault key f) t).withOverrides o :=
    List.foldl_hom (fun t => t.withOverrides o) fun t e => claimDefault_withOverrides key f o t e
  simp only [putWidget, hclaims, foldl_addCandidate]
  rfl

end RegistryTables

namespace Registry

/-- **The registry without the choice** for an extension. -/
def withoutChoice (r : Registry) (extension : String) : Registry :=
  { r with tables := r.tables.withOverrides (r.tables.overrides.erase extension) }

variable (r : Registry) (extension : String)

/-- The checks of a registration do not look at a choice, so what counts is what is done when they
are passed. -/
theorem withoutChoice_of_checks {invalid taken : Prop} {_ : Decidable invalid} {_ : Decidable taken}
    {no no' : Registration} {yes yes' : Registry × Registration}
    (h : yes' = (yes.1.withoutChoice extension, yes.2)) :
    (if invalid then (r.withoutChoice extension, no)
      else if taken then (r.withoutChoice extension, no') else yes') =
    ((if invalid then (r, no) else if taken then (r, no') else yes).1.withoutChoice extension,
      (if invalid then (r, no) else if taken then (r, no') else yes).2) := by
  split_ifs
  · rfl
  · rfl
  · exact h

/-- **Registering does not look at a choice.** -/
theorem register_withoutChoice (e : Entry) :
    (r.withoutChoice extension).register e =
      ((r.register e).1.withoutChoice extension, (r.register e).2) := by
  cases e with
  | model f => exact withoutChoice_of_checks r extension rfl
  | fileType f => exact withoutChoice_of_checks r extension rfl
  | widget f =>
    refine withoutChoice_of_checks r extension ?_
    have hput : (r.withoutChoice extension).tables.putWidget (Text.lower f.name) f =
        (r.tables.putWidget (Text.lower f.name) f).withOverrides
          (r.tables.overrides.erase extension) :=
      RegistryTables.putWidget_withOverrides _ _ _ f
    simp only [accept, withoutChoice, RegistryTables.overrides_putWidget] at hput ⊢
    rw [hput]

theorem widgets_withoutChoice : (r.withoutChoice extension).tables.widgets = r.tables.widgets := rfl

theorem isRegistered_withoutChoice (handle : Handle) :
    (r.withoutChoice extension).isRegistered handle = r.isRegistered handle := rfl

/-- **Removing does not look at a choice.** -/
theorem unregister_withoutChoice (handle : Handle) :
    (r.withoutChoice extension).unregister handle =
      (r.unregister handle).withoutChoice extension := by
  unfold unregister
  rw [isRegistered_withoutChoice]
  split
  · obtain ⟨kind, key, name⟩ := handle
    cases kind with
    | modelFactory => rfl
    | fileType => rfl
    | widgetFactory =>
      simp only [tablesWithout, withoutChoice, RegistryTables.withOverrides,
        RegistryTables.eraseWidget, Table.keepValues_erase]
      rfl
  · rfl

/-- **Choices for different extensions do not mind each other.** -/
theorem setDefault_withoutChoice {extension' : String} (factory : Option String)
    (hne : Extension.normalize extension' ≠ extension) :
    (r.withoutChoice extension).setDefault extension' factory =
      (r.setDefault extension' factory).map (·.withoutChoice extension) := by
  unfold setDefault
  cases factory with
  | none =>
    simp only [withoutChoice, RegistryTables.withOverrides, Except.map, Table.erase_erase]
  | some name =>
    dsimp only
    rw [widgets_withoutChoice r extension]
    split
    · rfl
    · split
      · simp only [withoutChoice, RegistryTables.withOverrides, Except.map,
          Table.erase_put_of_ne _ hne]
      · rfl

/-- A choice that is refused is refused without regard to what was chosen before. -/
theorem setDefault_withoutChoice_error {extension' : String} {factory : Option String}
    {error : RegistryError} (h : r.setDefault extension' factory = .error error) :
    (r.withoutChoice extension).setDefault extension' factory = .error error := by
  unfold setDefault at h ⊢
  cases factory with
  | none => cases h
  | some name =>
    dsimp only at h ⊢
    rw [widgets_withoutChoice r extension]
    split
    · next hg => rwa [hg] at h
    · next hg =>
      rw [hg] at h
      dsimp only at h
      split
      · next hs =>
        rw [if_pos hs] at h
        cases h
      · next hs => rwa [if_neg hs] at h

/-! ## 3. What a change does to a choice -/

variable {r} {extension} {key : String}

/-- A removal that leaves the factory leaves the choice of it. -/
theorem chosen_unregister (h : Chosen r.tables.overrides extension key) {handle : Handle}
    (there : ((r.unregister handle).tables.widgets.get? key).isSome) :
    Chosen (r.unregister handle).tables.overrides extension key := by
  unfold unregister at there ⊢
  split
  · next hreg =>
    rw [if_pos hreg] at there
    obtain ⟨kind, k, name⟩ := handle
    cases kind with
    | modelFactory => exact h
    | fileType => exact h
    | widgetFactory =>
      refine h.filter (bne_iff_ne.mpr ?_)
      rintro rfl
      simp [tablesWithout, RegistryTables.eraseWidget, Table.get?_erase] at there
  · exact h

/-- A choice for another extension leaves the choice. -/
theorem chosen_setDefault (h : Chosen r.tables.overrides extension key) {r' : Registry}
    {extension' : String} {factory : Option String}
    (hne : Extension.normalize extension' ≠ extension)
    (hr : r.setDefault extension' factory = .ok r') : Chosen r'.tables.overrides extension key := by
  unfold setDefault at hr
  cases factory with
  | none =>
    cases hr
    exact h.filter (bne_iff_ne.mpr (Ne.symm hne))
  | some name =>
    dsimp only at hr
    split at hr
    · cases hr
    · split at hr
      · cases hr
        exact h.put_other hne _
      · cases hr

/-- **A choice that is accepted** is one of a factory that is there, and it stands. -/
theorem setDefault_accepted {r' : Registry} {extension name : String}
    (hr : r.setDefault extension (some name) = .ok r') :
    (r.widget? name).isSome ∧ r'.changes = r.changes ∧
      r'.tables = r.tables.withOverrides
        (r.tables.overrides.put (Extension.normalize extension) (Text.lower name)) := by
  unfold setDefault at hr
  dsimp only at hr
  split at hr
  · cases hr
  · next hf =>
    split at hr
    · cases hr
      exact ⟨by rw [widget?, hf, Option.isSome_some], rfl, rfl⟩
    · cases hr

theorem addModel_registered {m : ModelFactory} {handle : Handle}
    (h : (r.addModel m).2 = .registered handle) :
    (r.addModel m).1.tables = r.tables.putModel (Text.lower m.name) m := by
  have done : r.addModel m =
      r.accept (r.tables.putModel (Text.lower m.name) m) .modelFactory (Text.lower m.name) m.name :=
    (registered_of_checks h).2
  rw [done]
  rfl

end Registry

/-! ## 4. Resolving a choice -/

namespace RegistryTables

variable {t : RegistryTables} {extension key : String} {f : WidgetFactory}

/-- **The factory that is chosen comes first.** -/
theorem head?_ranked_of_chosen (h : Chosen t.overrides extension key)
    (hf : t.widgets.get? key = some f) (hm : t.hasModel f = true) :
    (t.ranked extension).head? = some f := by
  simp [ranked, classes, h.get?, List.eraseDups_cons, hf, hm]

theorem not_mem_ranked_of_missing (hm : t.hasModel f = false) : f ∉ t.ranked extension := by
  intro h
  rw [ranked, List.mem_filter, hm] at h
  exact absurd h.2 (by simp)

end RegistryTables

/-! ## 5. Commands that leave a choice -/

namespace Host

open RegistryTables

/-- An entry that stands has a label. -/
theorem exists_of_mem_standing {e : Entry} {es : List Entry} {held : List HeldHandle}
    (h : e ∈ standing es held) :
    ∃ (i : Nat) (handle : Handle), es[i]? = some e ∧ held[i]? = some (.live handle) := by
  obtain ⟨⟨e', h'⟩, hm, rfl⟩ := List.mem_map.mp h
  obtain ⟨hm, hl⟩ := List.mem_filter.mp hm
  obtain ⟨i, hi⟩ := List.mem_iff_getElem?.mp hm
  obtain ⟨he, hh⟩ := List.getElem?_zip_eq_some.mp hi
  cases h' with
  | live handle => exact ⟨i, handle, he, hh⟩
  | inert => cases hl
  | used => cases hl

namespace Catalog

theorem after_append (before rest : List RegistryCommand) :
    after (before ++ rest) = rest.foldl (fun c k => (c.run k).1) (after before) :=
  List.foldl_append

/-- The catalog without the choice for an extension. -/
def withoutChoice (c : Catalog) (extension : String) : Catalog :=
  { c with registry := c.registry.withoutChoice extension }

/-- **A command leaves the choice** for an extension, given in normal form: it neither chooses the
default of the extension nor takes it back, though it may try to and be refused. -/
def Leaves (c : Catalog) (extension : String) (k : RegistryCommand) : Prop :=
  ∀ extension' factory, k = .setDefault extension' factory →
    Extension.normalize extension' = extension →
      ∃ error, c.registry.setDefault extension' factory = .error error

/-- **Commands leave the choice**, carried out after others. -/
def LeaveChoice (extension : String) (before rest : List RegistryCommand) : Prop :=
  ∀ front k back, rest = front ++ k :: back → (after (before ++ front)).Leaves extension k

variable {c : Catalog} {k : RegistryCommand} {extension key : String}
  {before before' rest : List RegistryCommand}

theorem leaveChoice_concat_iff : LeaveChoice extension before (rest ++ [k]) ↔
    LeaveChoice extension before rest ∧ (after (before ++ rest)).Leaves extension k := by
  constructor
  · intro h
    refine ⟨fun front k' back hr => h front k' (back ++ [k]) ?_, h rest k [] rfl⟩
    rw [hr, List.append_assoc, List.cons_append]
  · rintro ⟨h, hk⟩ front k' back hr
    rcases back.eq_nil_or_concat' with rfl | ⟨back, last, rfl⟩
    · obtain ⟨rfl, hlast⟩ := List.append_inj' hr rfl
      exact List.singleton_inj.mp hlast ▸ hk
    · rw [← List.cons_append, ← List.append_assoc] at hr
      exact h front k' back (List.append_inj' hr rfl).1

/-- A removal leaves the choice; it may take it away with the factory. -/
theorem leaves_unregister (c : Catalog) (extension : String) (label : Option Nat) :
    c.Leaves extension (.unregister label) := by
  intro extension' factory h
  cases h

/-- Commands that do not mention the extension leave the choice. -/
theorem leaveChoice_of_forall (h : ∀ extension' factory,
    .setDefault extension' factory ∈ rest → Extension.normalize extension' ≠ extension) :
    LeaveChoice extension before rest := by
  rintro front k back rfl extension' factory rfl hn
  exact absurd hn (h _ factory (by simp))

/-- **A command that leaves the choice** does the same with it and without it. -/
theorem run_withoutChoice (leaves : c.Leaves extension k) :
    ((c.withoutChoice extension).run k).1 = (c.run k).1.withoutChoice extension := by
  have hentry (e : Entry) : ((c.withoutChoice extension).keep
      ((c.withoutChoice extension).registry.register e)).1 =
        (c.keep (c.registry.register e)).1.withoutChoice extension := by
    have hr : (c.withoutChoice extension).registry.register e =
        ((c.registry.register e).1.withoutChoice extension, (c.registry.register e).2) :=
      Registry.register_withoutChoice _ _ e
    rw [hr]
    rfl
  cases k with
  | addModel f => exact hentry (.model f)
  | addWidget f => exact hentry (.widget f)
  | addFileType f => exact hentry (.fileType f)
  | unregister label =>
    cases label with
    | none => rfl
    | some i =>
      have hheld : (c.withoutChoice extension).held = c.held := rfl
      simp only [run, unregister, hheld]
      split
      · simp only [withoutChoice, Registry.unregister_withoutChoice]
      · rfl
      · rfl
      · rfl
  | setDefault extension' factory =>
    by_cases hn : Extension.normalize extension' = extension
    · obtain ⟨error, he⟩ := leaves extension' factory rfl hn
      have he' := Registry.setDefault_withoutChoice_error c.registry extension he
      simp only [run, he, withoutChoice, he']
    · have hs := Registry.setDefault_withoutChoice c.registry extension factory hn
      simp only [run, withoutChoice, hs]
      cases c.registry.setDefault extension' factory <;> rfl
  | _ => rfl

/-- **Commands that leave the choice** lead to the same with it and without it. -/
theorem after_withoutChoice (h : after before' = (after before).withoutChoice extension)
    (leave : LeaveChoice extension before rest) :
    after (before' ++ rest) = (after (before ++ rest)).withoutChoice extension := by
  induction rest using List.reverseRecOn with
  | nil => simpa using h
  | append_singleton rest k ih =>
    obtain ⟨leave, leaves⟩ := leaveChoice_concat_iff.mp leave
    rw [← List.append_assoc, ← List.append_assoc, after_concat, after_concat, ih leave,
      run_withoutChoice leaves]

/-- **A command that leaves the choice and the factory** keeps the choice. -/
theorem chosen_run (h : Chosen c.registry.tables.overrides extension key)
    (leaves : c.Leaves extension k)
    (there : ((c.run k).1.registry.tables.widgets.get? key).isSome) :
    Chosen (c.run k).1.registry.tables.overrides extension key := by
  have hentry (e : Entry) :
      Chosen (c.registry.register e).1.tables.overrides extension key := by
    rwa [Registry.overrides_register]
  cases k with
  | addModel f => exact hentry (.model f)
  | addWidget f => exact hentry (.widget f)
  | addFileType f => exact hentry (.fileType f)
  | unregister label =>
    cases label with
    | none => exact h
    | some i =>
      simp only [run, unregister] at there ⊢
      split
      · next hi =>
        rw [hi] at there
        exact Registry.chosen_unregister h there
      · exact h
      · exact h
      · exact h
  | setDefault extension' factory =>
    simp only [run]
    cases hs : c.registry.setDefault extension' factory with
    | error e => exact h
    | ok r' =>
      refine Registry.chosen_setDefault h (fun hn => ?_) hs
      obtain ⟨error, he⟩ := leaves extension' factory rfl hn
      rw [hs] at he
      cases he
  | _ => exact h

/-- **The factory of a handle that was not used** is there. -/
theorem widget_of_held {commands : List RegistryCommand}
    (declared : ∀ f, .widget f ∈ asked commands → f.IsDeclared) {f : WidgetFactory} {i : Nat}
    {handle : Handle} (he : (asked commands)[i]? = some (.widget f))
    (held : (after commands).held[i]? = some (.live handle)) :
    (after commands).registry.tables.widgets.get? (Text.lower f.name) = some f := by
  have hm : f ∈ (after commands).registry.tables.widgets.values := by
    have hentry := (accounts_after declared).mem_entries.mpr (mem_standing he held)
    simpa [mem_entries, entriesOf, Entry.kind] using hentry
  exact (get?_widgets_iff (consistent_after declared)).mpr ⟨hm, rfl⟩

/-- **A choice lasts** through all commands that leave it and do not remove the factory. -/
theorem chosen_after (declared : ∀ f, .widget f ∈ asked (before ++ rest) → f.IsDeclared)
    {f : WidgetFactory} {i : Nat} {handle : Handle} (he : (asked before)[i]? = some (.widget f))
    (held : (after before).held[i]? = some (.live handle))
    (chosen : Chosen (after before).registry.tables.overrides extension (Text.lower f.name))
    (unused : .unregister (some i) ∉ rest) (leave : LeaveChoice extension before rest) :
    Chosen (after (before ++ rest)).registry.tables.overrides extension (Text.lower f.name) ∧
      (after (before ++ rest)).held[i]? = some (.live handle) ∧
      (after (before ++ rest)).registry.tables.widgets.get? (Text.lower f.name) = some f := by
  have hasked {more : List RegistryCommand} :
      (asked (before ++ more))[i]? = some (.widget f) := by
    rw [asked, List.filterMap_append]
    exact List.getElem?_append_left (List.getElem?_eq_some_iff.mp he).1 ▸ he
  induction rest using List.reverseRecOn with
  | nil =>
    rw [List.append_nil] at declared ⊢
    exact ⟨chosen, held, widget_of_held declared he held⟩
  | append_singleton rest k ih =>
    obtain ⟨leave, leaves⟩ := leaveChoice_concat_iff.mp leave
    rw [List.mem_append, List.mem_singleton, not_or] at unused
    rw [← List.append_assoc] at declared
    obtain ⟨ihchosen, ihheld, -⟩ := ih (declared_of_append declared) unused.1 leave
    have hheld : (after (before ++ rest ++ [k])).held[i]? = some (.live handle) := by
      rw [after_concat, held_run (List.getElem?_eq_some_iff.mp ihheld).1 (Ne.symm unused.2), ihheld]
    have hwidget := widget_of_held declared (List.append_assoc before rest [k] ▸ hasked) hheld
    rw [← List.append_assoc]
    refine ⟨?_, hheld, hwidget⟩
    rw [after_concat] at hwidget ⊢
    exact chosen_run ihchosen leaves (hwidget ▸ rfl)

/-- **With the factory the choice goes.** -/
theorem withoutChoice_run_unregister {f : WidgetFactory} {i : Nat}
    (chosen : Chosen c.registry.tables.overrides extension (Text.lower f.name))
    (hheld : c.held[i]? = some (.live (Entry.widget f).handle))
    (hwidget : c.registry.tables.widgets.get? (Text.lower f.name) = some f) :
    (c.run (.unregister (some i))).1.withoutChoice extension =
      (c.run (.unregister (some i))).1 := by
  have hthere : c.registry.isRegistered (Entry.widget f).handle = true := by
    have hc : c.registry.tables.widgets.contains (Text.lower f.name) = true := by
      rw [Table.contains_eq_isSome_get?, hwidget, Option.isSome_some]
    exact hc
  simp only [run, unregister, hheld, Registry.unregister, if_pos hthere]
  simp only [withoutChoice, Registry.withoutChoice, withOverrides, Registry.tablesWithout,
    Entry.handle, Entry.kind, Entry.key, Entry.name, eraseWidget, chosen.erase_keepValues]

/-- **What a choice that is accepted leads to**: the factory is there, with the handle that removes
it, and it is chosen; and to take the choice back at once leads to the same without the choice. -/
theorem after_choice {name extension : String}
    (declared : ∀ f, .widget f ∈ asked before → f.IsDeclared)
    (accepted : ((after before).run (.setDefault extension (some name))).2 = .ok) :
    ∃ (f : WidgetFactory) (i : Nat), (after before).registry.widget? name = some f ∧
      Text.lower name = Text.lower f.name ∧
      (asked before)[i]? = some (.widget f) ∧
      (after before).held[i]? = some (.live (Entry.widget f).handle) ∧
      Chosen (after (before ++ [.setDefault extension (some name)])).registry.tables.overrides
        (Extension.normalize extension) (Text.lower f.name) ∧
      after (before ++ [.setDefault extension none]) =
        (after (before ++ [.setDefault extension (some name)])).withoutChoice
          (Extension.normalize extension) := by
  have ha := accounts_after declared
  simp only [after_concat, run] at accepted ⊢
  cases hs : (after before).registry.setDefault extension (some name) with
  | error e =>
    rw [hs] at accepted
    cases accepted
  | ok r' =>
    obtain ⟨hsome, hchanges, htables⟩ := Registry.setDefault_accepted hs
    obtain ⟨f, hf⟩ := Option.isSome_iff_exists.mp hsome
    obtain ⟨hm, hkey⟩ := (get?_widgets_iff (consistent_after declared)).mp hf
    have hentry : Entry.widget f ∈ (after before).registry.tables.entries := by
      simpa [mem_entries, entriesOf, Entry.kind] using hm
    obtain ⟨i, handle, he, hheld⟩ := exists_of_mem_standing (ha.mem_entries.mp hentry)
    obtain ⟨e', he', rfl⟩ := ha.handles i handle hheld
    obtain rfl : Entry.widget f = e' := Option.some.inj (he.symm.trans he')
    refine ⟨f, i, hf, hkey, he, hheld, ?_, ?_⟩
    · rw [htables, ← hkey]
      exact Chosen.put_self _ _ _
    · obtain ⟨tables, changes⟩ := r'
      simp only at hchanges htables
      subst hchanges htables
      simp only [Registry.setDefault, withoutChoice, Registry.withoutChoice, withOverrides,
        Table.erase_put]

end Catalog

/-! ## 6. The theorem -/

/-- **A factory that is chosen is the default**, for every spelling of the extension. -/
theorem Registry.default?_of_chosen {r : Registry} {f : WidgetFactory} {spelling : String}
    (chosen : Chosen r.tables.overrides (Extension.normalize spelling) (Text.lower f.name))
    (hwidget : r.tables.widgets.get? (Text.lower f.name) = some f) :
    ((r.model? f.modelName).isSome → r.default? spelling = some f) ∧
      (r.model? f.modelName = none → f ∉ r.preferred spelling) ∧
      ∀ m handle, Text.lower m.name = Text.lower f.modelName →
        (r.addModel m).2 = .registered handle → (r.addModel m).1.default? spelling = some f := by
  have hmodel {t : RegistryTables} :
      t.hasModel f = (t.models.get? (Text.lower f.modelName)).isSome :=
    Table.contains_eq_isSome_get? _ _
  refine ⟨fun hm => ?_, fun hm => ?_, fun m handle hname haccepted => ?_⟩
  · exact head?_ranked_of_chosen chosen hwidget (hmodel.trans hm)
  · refine not_mem_ranked_of_missing ?_
    rw [hmodel, ← Registry.model?, hm, Option.isSome_none]
  · have htables := Registry.addModel_registered haccepted
    rw [Registry.default?, Registry.preferred, htables]
    refine head?_ranked_of_chosen chosen hwidget ?_
    rw [hmodel, putModel, Table.get?_put, if_pos hname.symm, Option.isSome_some]

open Catalog in
/-- **A default that the user has chosen sticks.**  In any registry that commands lead to, the
factory that a name means is chosen as the default of an extension.  Then through all commands that
do not remove this factory, and neither choose nor take back a default for the same normal form:

* the factory is there, and it is the default for every spelling of the extension if its model
  factory is registered; if not it is passed over, and it is the default again once a model factory
  is registered under that name;
* once the factory is removed, whatever comes later is as if the choice had been taken back at once:
  no choice is left for the extension, and a factory that is registered under the name is like any
  other. -/
theorem chosen_default_sticks (before : List RegistryCommand) (extension name : String)
    (declared : ∀ f, .widget f ∈ asked before → f.IsDeclared)
    (accepted : ((after before).run (.setDefault extension (some name))).2 = .ok) :
    let chosen := before ++ [.setDefault extension (some name)]
    let takenBack := before ++ [.setDefault extension none]
    let normal := Extension.normalize extension
    ∃ (f : WidgetFactory) (i : Nat), (after before).registry.widget? name = some f ∧
      (after before).held[i]? = some (.live (Entry.widget f).handle) ∧
      ∀ rest, (∀ g, .widget g ∈ asked rest → g.IsDeclared) → .unregister (some i) ∉ rest →
        LeaveChoice normal chosen rest →
        let r := (after (chosen ++ rest)).registry
        let removed := rest ++ [.unregister (some i)]
        r.widget? name = some f ∧
        (∀ spelling, Extension.normalize spelling = normal →
          ((r.model? f.modelName).isSome → r.default? spelling = some f) ∧
          (r.model? f.modelName = none → f ∉ r.preferred spelling) ∧
          ∀ m handle, Text.lower m.name = Text.lower f.modelName →
            (r.addModel m).2 = .registered handle →
            (r.addModel m).1.default? spelling = some f) ∧
        ∀ later, after (chosen ++ removed ++ later) = after (takenBack ++ removed ++ later) ∧
          (LeaveChoice normal (chosen ++ removed) later →
            (after (chosen ++ removed ++ later)).registry.tables.overrides.get? normal = none) := by
  intro chosen takenBack normal
  obtain ⟨f, i, hf, hkey, he, hheld, hchosen, htaken⟩ := after_choice declared accepted
  refine ⟨f, i, hf, hheld, fun rest declared' unused leave => ?_⟩
  have hasked : asked chosen = asked before := by simp [chosen, asked, RegistryCommand.entry?]
  have declared'' : ∀ g, .widget g ∈ asked (chosen ++ rest) → g.IsDeclared := by
    intro g hg
    rw [asked, List.filterMap_append] at hg
    rcases List.mem_append.mp hg with hg | hg
    · exact declared g (hasked ▸ hg)
    · exact declared' g hg
  have hheld' : (after chosen).held[i]? = some (.live (Entry.widget f).handle) := by
    rw [after_concat, held_run (List.getElem?_eq_some_iff.mp hheld).1 (by simp), hheld]
  obtain ⟨lasting, live, hwidget⟩ :=
    chosen_after declared'' (hasked ▸ he) hheld' hchosen unused leave
  intro r removed
  refine ⟨?_, fun spelling hs => ?_, fun later => ?_⟩
  · rw [Registry.widget?, hkey]
    exact hwidget
  · exact Registry.default?_of_chosen (hs ▸ lasting) hwidget
  · have hgone : (after (chosen ++ removed)).withoutChoice normal = after (chosen ++ removed) := by
      rw [← List.append_assoc, after_concat]
      exact withoutChoice_run_unregister lasting live hwidget
    have hremoved : LeaveChoice normal chosen removed :=
      leaveChoice_concat_iff.mpr ⟨leave, leaves_unregister _ _ _⟩
    refine ⟨?_, fun hlater => ?_⟩
    · rw [after_append, after_append _ later, after_withoutChoice htaken hremoved, hgone]
    · rw [after_withoutChoice hgone.symm hlater]
      exact (Table.get?_erase _ _ _).trans (if_pos rfl)

/-- Texts, an editor that is the default of `.txt`, and a viewer for everything. -/
def editorAndViewer : List RegistryCommand :=
  [.addModel .text, .addWidget (sampleFactory "Editor" [".txt"] [".txt"]),
    .addWidget (sampleFactory "Viewer" ["*"] [])]

/-- Another editor takes the default over, the viewer is chosen for everything else too, and the
factory of texts is removed. -/
def laterChanges : List RegistryCommand :=
  [.addWidget (sampleFactory "Other" ["txt"] ["txt"]), .setDefault "*" (some "Viewer"),
    .unregister (some 0)]

/-- The viewer is chosen for `.TXT`.  It is the default of `txt` at once, and again when texts can
be shown again, though another editor has become the default of `.txt` in between. -/
theorem chosen_default_sticks_viewer :
    let commands := editorAndViewer ++ [.setDefault ".TXT" (some "viewer")]
    let r := (Catalog.after (commands ++ laterChanges)).registry
    ((Catalog.after commands).registry.default? "txt").map (·.name) = some "Viewer" ∧
    r.default? "txt" = none ∧
    ((r.addModel .text).1.default? "txt").map (·.name) = some "Viewer" ∧
    (r.addModel .text).1.tables.defaults.get? ".txt" = some "other" := by
  have sampleDeclared (name : String) (extensions defaultFor : List String) :
      (sampleFactory name extensions defaultFor).IsDeclared :=
    .asDefaultFor _ (.serving _ (.create _ _ none))
  have hasked : asked editorAndViewer = [.model .text,
      .widget (sampleFactory "Editor" [".txt"] [".txt"]),
      .widget (sampleFactory "Viewer" ["*"] [])] := rfl
  have hlater : asked laterChanges = [.widget (sampleFactory "Other" ["txt"] ["txt"])] := rfl
  have declared : ∀ f, .widget f ∈ asked editorAndViewer → f.IsDeclared := by
    simp only [hasked, List.mem_cons, List.not_mem_nil, Entry.widget.injEq, reduceCtorEq, or_false,
      false_or]
    rintro f (rfl | rfl) <;> exact sampleDeclared _ _ _
  have declared' : ∀ f, .widget f ∈ asked laterChanges → f.IsDeclared := by
    simp only [hlater, List.mem_cons, List.not_mem_nil, Entry.widget.injEq, or_false]
    rintro f rfl
    exact sampleDeclared _ _ _
  obtain ⟨f, i, hf, held, hall⟩ :=
    chosen_default_sticks editorAndViewer ".TXT" "viewer" declared (by rfl)
  have hname : f = sampleFactory "Viewer" ["*"] [] := by
    have hviewer : (Catalog.after editorAndViewer).registry.widget? "viewer" =
        some (sampleFactory "Viewer" ["*"] []) := by decide +kernel
    exact Option.some.inj (hf.symm.trans hviewer)
  subst hname
  have unused : RegistryCommand.unregister (some i) ∉ laterChanges := by
    have hi : i ≠ 0 := by
      rintro rfl
      have hzero : (Catalog.after editorAndViewer).held[0]? =
          some (.live (Entry.model .text).handle) := by decide +kernel
      rw [hzero] at held
      cases held
    simp [laterChanges, hi]
  have leave : Catalog.LeaveChoice (Extension.normalize ".TXT")
      (editorAndViewer ++ [.setDefault ".TXT" (some "viewer")]) laterChanges := by
    refine Catalog.leaveChoice_of_forall fun extension' factory hm => ?_
    simp only [laterChanges, List.mem_cons, List.not_mem_nil, reduceCtorEq, or_false, false_or,
      RegistryCommand.setDefault.injEq] at hm
    obtain ⟨rfl, -⟩ := hm
    decide +kernel
  obtain ⟨-, hnow, -⟩ :=
    hall [] (by simp [asked]) (by simp) (Catalog.leaveChoice_of_forall (by simp))
  obtain ⟨-, hlast, -⟩ := hall laterChanges declared' unused leave
  have hspelling : Extension.normalize "txt" = Extension.normalize ".TXT" := by decide +kernel
  refine ⟨?_, by decide +kernel, ?_, by decide +kernel⟩
  · have hd := (hnow "txt" hspelling).1 (by decide +kernel)
    rw [List.append_nil] at hd
    rw [hd]
    rfl
  · rw [(hlast "txt" hspelling).2.2 .text _ (by decide +kernel) (by rfl)]
    rfl

end Host

end Folio
