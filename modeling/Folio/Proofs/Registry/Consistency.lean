/-
# What the tables of a registry agree on

A registry keeps the same facts in several tables: which factories there are, which of them serve
an extension, which of them is the default for it.  `RegistryTables.Consistent` says that the tables
agree:

* entries stand under the lower case of their names, each name once;
* the candidates of an extension are exactly the widget factories that declare it, in the order in
  which they were registered, and no list of candidates is empty;
* a default names a factory that declares the extension, a chosen default one that declares it or
  the wildcard.

Each operation on the tables keeps this.  A widget factory has to declare no extension twice, which
is so for every factory that is built up by the operations on factories
(`WidgetFactory.IsDeclared.nodup`): one that did would be its own second candidate.
-/
import Folio.Registry.Precedence

namespace Folio

/-! ## 1. Widget factories declare no extension twice -/

namespace WidgetFactory

/-- **A widget factory as it is built up**: from a name, by declaring extensions. -/
inductive IsDeclared : WidgetFactory → Prop where
  | create (name modelName : String) (viewName : Option String) :
    IsDeclared { create name modelName with viewName }
  | serving {f : WidgetFactory} (declared : List String) :
    IsDeclared f → IsDeclared (f.serving declared)
  | asDefaultFor {f : WidgetFactory} (declared : List String) :
    IsDeclared f → IsDeclared (f.asDefaultFor declared)

theorem nodup_addNormalized {known : List String} (declared : List String) (h : known.Nodup) :
    (addNormalized known declared).Nodup := by
  refine List.foldlRecOn declared _ h fun known ih e _ => ?_
  dsimp only
  split
  · exact ih
  · next hn =>
    exact List.nodup_append.mpr ⟨ih, by simp, by
      rintro a ha b hb rfl
      exact hn (List.mem_singleton.mp hb ▸ ha)⟩

theorem IsDeclared.nodup {f : WidgetFactory} (h : f.IsDeclared) : f.extensions.Nodup := by
  induction h with
  | create => exact List.nodup_nil
  | serving declared _ ih => exact nodup_addNormalized declared ih
  | asDefaultFor declared _ ih => exact ih

theorem serves_iff {f : WidgetFactory} {extension : String} :
    f.serves extension = true ↔ extension ∈ f.extensions := by
  simp [serves]

end WidgetFactory

/-! ## 2. Agreement -/

namespace RegistryTables

/-- The keys of the widget factories that declare an extension, in the order of registration. -/
def declaring (t : RegistryTables) (extension : String) : List String :=
  (t.widgets.entries.filter (·.2.serves extension)).map (·.1)

/-- The key is that of a widget factory that declares the extension. -/
def Declares (t : RegistryTables) (key extension : String) : Prop :=
  ∃ f, t.widgets.get? key = some f ∧ f.serves extension = true

/-- **The tables agree with each other.** -/
structure Consistent (t : RegistryTables) : Prop where
  models_named : ∀ e ∈ t.models.entries, e.1 = Text.lower e.2.name
  models_distinct : t.models.keys.Nodup
  widgets_named : ∀ e ∈ t.widgets.entries, e.1 = Text.lower e.2.name
  widgets_distinct : t.widgets.keys.Nodup
  fileTypes_distinct : (t.fileTypes.map fun f => Text.lower f.name).Nodup
  candidates_distinct : t.candidates.keys.Nodup
  candidates_eq : ∀ e, (t.candidates.get? e).getD [] = t.declaring e
  candidates_ne_nil : ∀ e, t.candidates.get? e ≠ some []
  defaults_declare : ∀ e ∈ t.defaults.entries, t.Declares e.2 e.1
  globalDefault_declares : ∀ key, t.globalDefault = some key → t.Declares key Extension.wildcard
  overrides_declare : ∀ e ∈ t.overrides.entries,
    t.Declares e.2 e.1 ∨ t.Declares e.2 Extension.wildcard

theorem consistent_empty : Consistent {} where
  models_named := by simp [Table.empty]
  models_distinct := List.nodup_nil
  widgets_named := by simp [Table.empty]
  widgets_distinct := List.nodup_nil
  fileTypes_distinct := List.nodup_nil
  candidates_distinct := List.nodup_nil
  candidates_eq := fun _ => rfl
  candidates_ne_nil := fun _ h => nomatch h
  defaults_declare := by simp [Table.empty]
  globalDefault_declares := fun _ h => nomatch h
  overrides_declare := by simp [Table.empty]

variable {t : RegistryTables}

theorem mem_declaring {key extension : String} (h : t.Consistent) :
    key ∈ t.declaring extension ↔ t.Declares key extension := by
  simp only [declaring, List.mem_map, List.mem_filter, Declares,
    Table.get?_eq_some_iff h.widgets_distinct]
  constructor
  · rintro ⟨⟨k, f⟩, ⟨hm, hs⟩, rfl⟩
    exact ⟨f, hm, hs⟩
  · rintro ⟨f, hm, hs⟩
    exact ⟨(key, f), ⟨hm, hs⟩, rfl⟩

/-! ## 3. Factories of models and file types -/

theorem Consistent.putModel (f : ModelFactory) (h : t.Consistent) :
    (t.putModel (Text.lower f.name) f).Consistent :=
  { h with
    models_named := fun e he => by
      rcases Table.mem_entries_put he with rfl | he
      · rfl
      · exact h.models_named e he
    models_distinct := Table.nodup_keys_put _ _ h.models_distinct }

theorem Consistent.eraseModel (key : String) (h : t.Consistent) :
    (t.eraseModel key).Consistent :=
  { h with
    models_named := fun e he => h.models_named e (List.mem_filter.mp he).1
    models_distinct := Table.nodup_keys_erase key h.models_distinct }

theorem findFileType?_eq_none {key : String} (h : t.findFileType? key = none) :
    key ∉ t.fileTypes.map fun f => Text.lower f.name := by
  intro hm
  obtain ⟨f, hf, hk⟩ := List.mem_map.mp hm
  simpa [hk] using List.find?_eq_none.mp h f hf

theorem Consistent.addFileType {f : FileType} (h : t.Consistent)
    (free : t.findFileType? (Text.lower f.name) = none) :
    Consistent { t with fileTypes := t.fileTypes ++ [f] } :=
  { h with
    fileTypes_distinct := by
      rw [List.map_append]
      refine List.nodup_append.mpr ⟨h.fileTypes_distinct, by simp, ?_⟩
      rintro a ha b hb rfl
      rw [List.mem_singleton.mp hb] at ha
      exact findFileType?_eq_none free ha }

theorem Consistent.eraseFileType (key : String) (h : t.Consistent) :
    (t.eraseFileType key).Consistent :=
  { h with
    fileTypes_distinct := h.fileTypes_distinct.sublist (List.filter_sublist.map _) }

/-! ## 4. Registering a factory of widgets

Its defaults are claimed one by one, and it is entered as a candidate extension by extension, before
its own entry is made. -/

/-- **What claiming defaults may change**: defaults that name the factory come in, for extensions
that it declares. -/
structure Claims (key : String) (f : WidgetFactory) (t t' : RegistryTables) : Prop where
  rest : t' = { t with globalDefault := t'.globalDefault, defaults := t'.defaults }
  globalDefault : ∀ k, t'.globalDefault = some k →
    t.globalDefault = some k ∨ k = key ∧ f.serves Extension.wildcard = true
  defaults : ∀ e ∈ t'.defaults.entries,
    e ∈ t.defaults.entries ∨ e.2 = key ∧ f.serves e.1 = true

theorem claims_refl (key : String) (f : WidgetFactory) : Claims key f t t :=
  ⟨rfl, fun _ => .inl, fun _ => .inl⟩

theorem claims_claimDefault {key : String} {f : WidgetFactory} {s : RegistryTables}
    (extension : String) (h : Claims key f t s) :
    Claims key f t (claimDefault key f s extension) := by
  unfold claimDefault
  split
  · exact h
  · next hs =>
    have hs : f.serves extension = true := by simpa using hs
    split
    · next hw =>
      refine ⟨?_, ?_, h.defaults⟩
      · rw [h.rest]
      · rintro k hk
        exact .inr ⟨(Option.some.inj hk).symm, hw ▸ hs⟩
    · refine ⟨?_, h.globalDefault, ?_⟩
      · rw [h.rest]
      · intro e he
        rcases Table.mem_entries_put he with rfl | he
        · exact .inr ⟨rfl, hs⟩
        · exact h.defaults e he

theorem claims_foldl (key : String) (f : WidgetFactory) (extensions : List String) :
    Claims key f t (extensions.foldl (claimDefault key f) t) :=
  List.foldlRecOn extensions _ (claims_refl key f) fun _ h e _ => claims_claimDefault e h

/-- The tables with other candidates. -/
def withCandidates (t : RegistryTables) (candidates : Table String (List String)) :
    RegistryTables :=
  { t with candidates }

/-- Entering a factory as a candidate for several extensions. -/
def enlist (key : String) (candidates : Table String (List String)) (extensions : List String) :
    Table String (List String) :=
  extensions.foldl (fun c e => c.put e ((c.get? e).getD [] ++ [key])) candidates

theorem foldl_addCandidate (key : String) : ∀ (extensions : List String) (t : RegistryTables),
    extensions.foldl (addCandidate key) t = t.withCandidates (enlist key t.candidates extensions)
  | [], _ => rfl
  | e :: rest, t => by
    rw [List.foldl_cons, foldl_addCandidate key rest]
    rfl

/-- **The candidates after a factory was entered**: it stands last for every extension that it was
entered for. -/
theorem getD_enlist (key e : String) :
    ∀ (extensions : List String) (c : Table String (List String)), extensions.Nodup →
    ((enlist key c extensions).get? e).getD [] =
      (c.get? e).getD [] ++ if e ∈ extensions then [key] else []
  | [], _, _ => by simp [enlist]
  | d :: rest, c, hd => by
    rw [List.nodup_cons] at hd
    have ih := getD_enlist key e rest (c.put d ((c.get? d).getD [] ++ [key])) hd.2
    rw [Table.get?_put] at ih
    by_cases he : e = d
    · subst he
      simpa [enlist, hd.1] using ih
    · simpa [enlist, he] using ih

theorem nodup_keys_enlist {key : String} (extensions : List String)
    {c : Table String (List String)} (h : c.keys.Nodup) :
    (enlist key c extensions).keys.Nodup := by
  unfold enlist
  induction extensions generalizing c with
  | nil => exact h
  | cons d rest ih => exact ih (Table.nodup_keys_put _ _ h)

theorem enlist_ne_nil {key : String} (extensions : List String) {c : Table String (List String)}
    (h : ∀ e, c.get? e ≠ some []) (e : String) : (enlist key c extensions).get? e ≠ some [] := by
  unfold enlist
  induction extensions generalizing c with
  | nil => exact h e
  | cons d rest ih =>
    refine ih fun e => ?_
    rw [Table.get?_put]
    split
    · simp
    · exact h e

/-- The tables after a factory of widgets was entered. -/
theorem putWidget_eq (t : RegistryTables) (key : String) (f : WidgetFactory) :
    ∃ t', Claims key f t t' ∧
      t.putWidget key f =
        { t'.withCandidates (enlist key t.candidates f.extensions) with
          widgets := t.widgets.put key f } := by
  have hc := claims_foldl (t := t) key f f.defaultFor
  refine ⟨_, hc, ?_⟩
  simp only [putWidget, foldl_addCandidate]
  rw [hc.rest]
  rfl

theorem Consistent.putWidget {f : WidgetFactory} (h : t.Consistent)
    (free : t.widgets.contains (Text.lower f.name) = false) (nodup : f.extensions.Nodup) :
    (t.putWidget (Text.lower f.name) f).Consistent := by
  obtain ⟨t', hc, heq⟩ := putWidget_eq t (Text.lower f.name) f
  have old {key e : String} (hd : t.Declares key e) :
      ∃ g, (t.widgets.put (Text.lower f.name) f).get? key = some g ∧ g.serves e = true := by
    obtain ⟨g, hg, hs⟩ := hd
    have hne : key ≠ Text.lower f.name := by
      rintro rfl
      rw [Table.contains_eq_isSome_get?, hg] at free
      cases free
    exact ⟨g, by rw [Table.get?_put, if_neg hne, hg], hs⟩
  have new {e : String} (hs : f.serves e = true) :
      ∃ g, (t.widgets.put (Text.lower f.name) f).get? (Text.lower f.name) = some g ∧
        g.serves e = true :=
    ⟨f, by rw [Table.get?_put, if_pos rfl], hs⟩
  have rest := hc.rest
  rw [heq]
  exact
    { models_named := by rw [rest]; exact h.models_named
      models_distinct := by rw [rest]; exact h.models_distinct
      fileTypes_distinct := by rw [rest]; exact h.fileTypes_distinct
      widgets_named := fun e he => by
        rcases Table.mem_entries_put he with rfl | he
        · rfl
        · exact h.widgets_named e he
      widgets_distinct := Table.nodup_keys_put _ _ h.widgets_distinct
      candidates_distinct := nodup_keys_enlist _ h.candidates_distinct
      candidates_eq := fun e => by
        show ((enlist _ t.candidates f.extensions).get? e).getD [] = _
        rw [getD_enlist _ _ _ _ nodup, h.candidates_eq]
        simp only [declaring, Table.entries_put_of_not_contains f free, List.filter_append,
          List.map_append, ← WidgetFactory.serves_iff]
        cases hs : f.serves e <;> simp [hs]
      candidates_ne_nil := enlist_ne_nil _ h.candidates_ne_nil
      defaults_declare := fun e he => by
        rcases hc.defaults e he with he | ⟨hk, hs⟩
        · exact old (h.defaults_declare e he)
        · exact hk ▸ new hs
      globalDefault_declares := fun k hk => by
        rcases hc.globalDefault k hk with hk | ⟨rfl, hs⟩
        · exact old (h.globalDefault_declares k hk)
        · exact new hs
      overrides_declare := fun e he => by
        rw [rest] at he
        exact (h.overrides_declare e he).imp old old }

/-! ## 5. Removing a factory of widgets -/

theorem declares_eraseWidget {key k e : String} (hne : k ≠ key) :
    (t.eraseWidget key).Declares k e ↔ t.Declares k e := by
  simp [Declares, eraseWidget, Table.get?_erase, hne]

theorem declaring_eraseWidget (key e : String) :
    (t.eraseWidget key).declaring e = (t.declaring e).filter (· != key) := by
  simp only [declaring, eraseWidget, Table.erase, List.filter_filter, List.filter_map,
    Function.comp_def, Bool.and_comm]

/-- The candidates of an extension after a factory was removed. -/
theorem getD_candidates_eraseWidget (key e : String) (h : t.candidates.keys.Nodup) :
    (((t.eraseWidget key).candidates.get? e).getD []) =
      ((t.candidates.get? e).getD []).filter (· != key) := by
  simp only [eraseWidget]
  rw [Table.get?_keepValues _ (by simpa using h), Table.get?_mapValues]
  cases t.candidates.get? e with
  | none => rfl
  | some names =>
    simp only [Option.map_some, Option.filter_some, Option.getD_some]
    cases hf : names.filter (· != key) with
    | nil => rfl
    | cons => rfl

theorem Consistent.eraseWidget (key : String) (h : t.Consistent) :
    (t.eraseWidget key).Consistent :=
  { models_named := h.models_named
    models_distinct := h.models_distinct
    fileTypes_distinct := h.fileTypes_distinct
    widgets_named := fun e he => h.widgets_named e (List.mem_filter.mp he).1
    widgets_distinct := Table.nodup_keys_erase key h.widgets_distinct
    candidates_distinct :=
      Table.nodup_keys_keepValues _ (by simpa using h.candidates_distinct)
    candidates_eq := fun e => by
      rw [getD_candidates_eraseWidget key e h.candidates_distinct, h.candidates_eq,
        declaring_eraseWidget]
    candidates_ne_nil := fun e he => by
      simp only [RegistryTables.eraseWidget] at he
      rw [Table.get?_keepValues _ (by simpa using h.candidates_distinct)] at he
      simpa using Option.filter_eq_some_iff.mp he
    defaults_declare := fun e he => by
      obtain ⟨he, hk⟩ := List.mem_filter.mp he
      exact (declares_eraseWidget (by simpa using hk)).mpr (h.defaults_declare e he)
    globalDefault_declares := fun k hk => by
      simp only [RegistryTables.eraseWidget] at hk
      split at hk
      · cases hk
      · next hne =>
        have hne : k ≠ key := fun hkk => hne (hkk ▸ hk)
        exact (declares_eraseWidget hne).mpr (h.globalDefault_declares k hk)
    overrides_declare := fun e he => by
      obtain ⟨he, hk⟩ := List.mem_filter.mp he
      have hne : e.2 ≠ key := by simpa using hk
      exact (h.overrides_declare e he).imp (declares_eraseWidget hne).mpr
        (declares_eraseWidget hne).mpr }

end RegistryTables

/-! ## 6. The operations of a registry -/

namespace Registry

open RegistryTables

variable {r : Registry}

theorem consistent_addModel (f : ModelFactory) (h : r.tables.Consistent) :
    (r.addModel f).1.tables.Consistent := by
  unfold addModel
  dsimp only
  split
  · exact h
  · split
    · exact h
    · exact h.putModel f

theorem consistent_addWidget {f : WidgetFactory} (hf : f.IsDeclared) (h : r.tables.Consistent) :
    (r.addWidget f).1.tables.Consistent := by
  unfold addWidget
  dsimp only
  split
  · exact h
  · split
    · exact h
    · next hfree => exact h.putWidget (by simpa using hfree) hf.nodup

theorem consistent_addFileType (f : FileType) (h : r.tables.Consistent) :
    (r.addFileType f).1.tables.Consistent := by
  unfold addFileType
  dsimp only
  split
  · exact h
  · split
    · exact h
    · next hfree => exact h.addFileType (by simpa using hfree)

theorem consistent_unregister (handle : Handle) (h : r.tables.Consistent) :
    (r.unregister handle).tables.Consistent := by
  unfold unregister
  split
  · unfold tablesWithout
    split
    · exact h.eraseModel _
    · exact h.eraseWidget _
    · exact h.eraseFileType _
  · exact h

theorem consistent_setDefault {r' : Registry} {extension : String} {factory : Option String}
    (h : r.tables.Consistent) (hr : r.setDefault extension factory = .ok r') :
    r'.tables.Consistent := by
  unfold setDefault at hr
  cases factory with
  | none =>
    cases hr
    exact { h with
      overrides_declare := fun e he => h.overrides_declare e (List.mem_filter.mp he).1 }
  | some name =>
    dsimp only at hr
    split at hr
    · cases hr
    · next f hf =>
      split at hr
      · next hs =>
        cases hr
        exact { h with
          overrides_declare := fun e he => by
            rcases Table.mem_entries_put he with rfl | he
            · exact ((Bool.or_eq_true _ _).mp hs).imp (⟨f, hf, ·⟩) (⟨f, hf, ·⟩)
            · exact h.overrides_declare e he }
      · cases hr

end Registry

end Folio
