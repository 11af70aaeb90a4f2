/-
# Resolving a path and resolving its extension

The preferred factories of a path are looked up by the extension as it is taken from the path, those
of an extension by its normal form.  The tables are keyed by normal forms only: a registered factory
declares no other extension (`WidgetFactory.IsDeclared.normalize_eq`), and no default is chosen for
another one (`overrides_normal_after`).  So the two agree whenever the extension of the path is a
normal form, and otherwise nothing is found under it, nor under its last segment: what is left are
the default of all extensions and the candidates of the wildcard (`flatten_classes_of_odd`).

The extension of a path is a normal form unless it is empty, is a dot and a star, or ends in a
blank.  For these three the path and its extension are resolved differently
(`path_and_extension_differ`).
-/
import Folio.Proofs.Registry.Ranking
import Folio.Proofs.Text.Extension

namespace Folio

/-! ## 1. Only normal forms are keys -/

theorem WidgetFactory.normalize_eq_of_mem_addNormalized {known declared : List String}
    (h : ∀ e ∈ known, Extension.normalize e = e) :
    ∀ e ∈ addNormalized known declared, Extension.normalize e = e := by
  refine List.foldlRecOn (motive := fun known => ∀ e ∈ known, Extension.normalize e = e)
    declared _ h fun known ih d _ => ?_
  dsimp only
  split
  · exact ih
  · intro e he
    rcases List.mem_append.mp he with he | he
    · exact ih e he
    · rw [List.mem_singleton.mp he, Extension.normalize_normalize]

/-- **A factory declares extensions in normal form.** -/
theorem WidgetFactory.IsDeclared.normalize_eq {f : WidgetFactory} (h : f.IsDeclared) :
    ∀ e ∈ f.extensions, Extension.normalize e = e := by
  induction h with
  | create => exact fun e he => nomatch he
  | serving declared _ ih => exact normalize_eq_of_mem_addNormalized ih
  | asDefaultFor declared _ ih => exact ih

namespace RegistryTables

variable {t : RegistryTables}

/-- **The keys of a registry are normal forms**: the extensions that its factories declare, and
those for which a default was chosen. -/
structure KeysNormal (t : RegistryTables) : Prop where
  declared : ∀ f ∈ t.widgets.values, ∀ e ∈ f.extensions, Extension.normalize e = e
  chosen : ∀ e ∈ t.overrides.entries, Extension.normalize e.1 = e.1

/-- Registering a factory of widgets chooses no default. -/
theorem overrides_putWidget (key : String) (f : WidgetFactory) :
    (t.putWidget key f).overrides = t.overrides := by
  obtain ⟨t', hc, heq⟩ := putWidget_eq t key f
  rw [heq, hc.rest]
  rfl

theorem serves_of_odd (hk : t.KeysNormal) {f : WidgetFactory} (hf : f ∈ t.widgets.values)
    {extension : String} (odd : Extension.normalize extension ≠ extension) :
    f.serves extension = false :=
  Bool.eq_false_iff.mpr fun hs => odd (hk.declared f hf _ (WidgetFactory.serves_iff.mp hs))

theorem not_declares_of_odd (hk : t.KeysNormal) {key extension : String}
    (odd : Extension.normalize extension ≠ extension) : ¬ t.Declares key extension := by
  rintro ⟨f, hf, hs⟩
  have hmem : f ∈ t.widgets.values := List.mem_map_of_mem (Table.mem_of_get? hf)
  rw [serves_of_odd hk hmem odd] at hs
  cases hs

theorem candidates_of_odd (h : t.Consistent) (hk : t.KeysNormal) {extension : String}
    (odd : Extension.normalize extension ≠ extension) :
    (t.candidates.get? extension).getD [] = [] := by
  rw [h.candidates_eq, List.eq_nil_iff_forall_not_mem]
  exact fun key hm => not_declares_of_odd hk odd ((mem_declaring h).mp hm)

theorem defaults_of_odd (h : t.Consistent) (hk : t.KeysNormal) {extension : String}
    (odd : Extension.normalize extension ≠ extension) : t.defaults.get? extension = none :=
  Option.eq_none_iff_forall_ne_some.mpr fun _ hd =>
    not_declares_of_odd hk odd (default_declares h hd)

theorem overrides_of_odd (hk : t.KeysNormal) {extension : String}
    (odd : Extension.normalize extension ≠ extension) : t.overrides.get? extension = none :=
  Option.eq_none_iff_forall_ne_some.mpr fun key ho =>
    odd (hk.chosen (extension, key) (Table.mem_of_get? ho))

/-- **Nothing is found under an extension that is no normal form**, if its last segment is none
either: the default of all extensions and the candidates of the wildcard remain. -/
theorem flatten_classes_of_odd (h : t.Consistent) (hk : t.KeysNormal) {extension : String}
    (odd : Extension.normalize extension ≠ extension)
    (last_odd : Extension.normalize (Extension.finalSegment extension) ≠
      Extension.finalSegment extension) :
    (t.classes extension).flatten =
      t.globalDefault.toList ++ (t.candidates.get? Extension.wildcard).getD [] := by
  simp [classes, overrides_of_odd hk odd, defaults_of_odd h hk odd, candidates_of_odd h hk odd,
    defaults_of_odd h hk last_odd, candidates_of_odd h hk last_odd]

/-- The factories that are found then declare the wildcard. -/
theorem mem_ranked_of_odd (h : t.Consistent) (hk : t.KeysNormal) {extension : String}
    (odd : Extension.normalize extension ≠ extension)
    (last_odd : Extension.normalize (Extension.finalSegment extension) ≠
      Extension.finalSegment extension) (f : WidgetFactory) :
    f ∈ t.ranked extension ↔
      f ∈ t.widgets.values ∧ t.hasModel f = true ∧ f.serves Extension.wildcard = true := by
  rw [mem_ranked h]
  refine and_congr_right fun hf => ?_
  simp [serves_of_odd hk hf odd, serves_of_odd hk hf last_odd]

end RegistryTables

/-! ## 2. After any commands -/

namespace Registry

variable {r : Registry}

theorem overrides_register (e : Entry) :
    (r.register e).1.tables.overrides = r.tables.overrides := by
  cases e with
  | model f =>
    simp only [register, addModel]
    split
    · rfl
    · split <;> rfl
  | widget f =>
    simp only [register, addWidget]
    split
    · rfl
    · split
      · rfl
      · exact RegistryTables.overrides_putWidget _ f
  | fileType f =>
    simp only [register, addFileType]
    split
    · rfl
    · split <;> rfl

theorem overrides_unregister (handle : Handle) :
    (r.unregister handle).tables.overrides.entries ⊆ r.tables.overrides.entries := by
  unfold unregister
  split
  · unfold tablesWithout
    split
    · exact List.Subset.refl _
    · exact List.filter_subset_self _
    · exact List.Subset.refl _
  · exact List.Subset.refl _

/-- **A default is chosen for a normal form.** -/
theorem overrides_setDefault {r' : Registry} {extension : String} {factory : Option String}
    (hr : r.setDefault extension factory = .ok r') {e : String × String}
    (he : e ∈ r'.tables.overrides.entries) :
    e.1 = Extension.normalize extension ∨ e ∈ r.tables.overrides.entries := by
  unfold setDefault at hr
  cases factory with
  | none =>
    cases hr
    exact .inr (List.mem_filter.mp he).1
  | some name =>
    dsimp only at hr
    split at hr
    · cases hr
    · split at hr
      · cases hr
        rcases Table.mem_entries_put he with rfl | he
        · exact .inl rfl
        · exact .inr he
      · cases hr

end Registry

namespace Host

/-- A command chooses defaults for normal forms only. -/
theorem Catalog.overrides_normal_run {c : Catalog} (k : RegistryCommand)
    (h : ∀ e ∈ c.registry.tables.overrides.entries, Extension.normalize e.1 = e.1) :
    ∀ e ∈ (c.run k).1.registry.tables.overrides.entries, Extension.normalize e.1 = e.1 := by
  intro e he
  rcases run_cases c k with ⟨entry, -, hr⟩ | ⟨-, ⟨i, handle, -, -, hr⟩ |
    ⟨extension, factory, registry, hs, hr⟩ | ⟨i, -, -, hr⟩ | hr⟩ <;> rw [hr] at he
  · have hkeep : (c.keep (c.registry.register entry)).1.registry =
        (c.registry.register entry).1 := rfl
    rw [hkeep, Registry.overrides_register] at he
    exact h e he
  · exact h e (Registry.overrides_unregister handle he)
  · rcases Registry.overrides_setDefault hs he with hn | he
    · rw [hn, Extension.normalize_normalize]
    · exact h e he
  · exact h e he
  · exact h e he

/-- **After any commands defaults are chosen for normal forms only.** -/
theorem Catalog.overrides_normal_after (commands : List RegistryCommand) :
    ∀ e ∈ (after commands).registry.tables.overrides.entries, Extension.normalize e.1 = e.1 := by
  induction commands using List.reverseRecOn with
  | nil => exact fun e he => nomatch he
  | append_singleton commands k ih =>
    rw [after_concat]
    exact overrides_normal_run k ih

theorem mem_asked_of_standing {e : Entry} {es : List Entry} {held : List HeldHandle}
    (h : e ∈ standing es held) : e ∈ es := by
  obtain ⟨⟨e', handle⟩, hm, rfl⟩ := List.mem_map.mp h
  exact (List.of_mem_zip (List.mem_filter.mp hm).1).1

/-- **After any commands the keys are normal forms.** -/
theorem Catalog.keysNormal_after {commands : List RegistryCommand}
    (declared : ∀ f, .widget f ∈ asked commands → f.IsDeclared) :
    (after commands).registry.tables.KeysNormal where
  declared f hf := by
    have hentry : Entry.widget f ∈ (after commands).registry.tables.entriesOf .widgetFactory :=
      List.mem_map_of_mem hf
    rw [(accounts_after declared).entries .widgetFactory] at hentry
    exact (declared f (mem_asked_of_standing (List.mem_filter.mp hentry).1)).normalize_eq
  chosen := overrides_normal_after commands

/-! ## 3. Paths and extensions -/

/-- **The factories for a path and those for its extension**, in any registry that commands lead
to.  They are the same factories in the same order, and the name `default` means the default of the
extension, if the extension of the path is a normal form, which all extensions of paths are but the
empty one, a dot and a star, and those that end in a blank.  For these the path is resolved like one
that has no name: only factories that declare the wildcard are found. -/
theorem path_resolves_as_extension (commands : List RegistryCommand)
    (declared : ∀ f, .widget f ∈ asked commands → f.IsDeclared) (path : String) :
    let r := (Catalog.after commands).registry
    let extension := Extension.ofPath path
    (Extension.normalize extension = extension ↔
      extension ≠ "" ∧ extension ≠ ".*" ∧ Text.EndsUnblank extension.toList) ∧
    (Extension.normalize extension = extension →
      r.preferredForPath path = r.preferred extension ∧
        ∀ name, Text.sameAscii name RegistryTables.defaultName = true →
          r.widgetFor? path name = r.default? extension) ∧
    (Extension.normalize extension ≠ extension →
      r.preferredForPath path = r.preferredForPath "" ∧
        ∀ f, f ∈ r.preferredForPath path ↔
          f ∈ r.widgets ∧ (r.model? f.modelName).isSome ∧
            f.serves Extension.wildcard = true) := by
  intro r extension
  have h : r.tables.Consistent := Catalog.consistent_after declared
  have hk : r.tables.KeysNormal := Catalog.keysNormal_after declared
  refine ⟨Extension.normalize_ofPath_iff path, fun normal => ?_, fun odd => ?_⟩
  · have hsame : r.preferredForPath path = r.preferred extension := by
      rw [Registry.preferred, normal]
      rfl
    refine ⟨hsame, fun name hname => ?_⟩
    rw [Registry.widgetFor?, if_pos hname, hsame]
    rfl
  · have last_odd := Extension.finalSegment_not_normal odd
    have empty_odd : Extension.normalize (Extension.ofPath "") ≠ Extension.ofPath "" := by
      decide +kernel
    have hclasses := RegistryTables.flatten_classes_of_odd h hk odd last_odd
    have hempty := RegistryTables.flatten_classes_of_odd h hk empty_odd
      (Extension.finalSegment_not_normal empty_odd)
    refine ⟨?_, fun f => ?_⟩
    · simp only [Registry.preferredForPath, RegistryTables.ranked]
      rw [hclasses, hempty]
    · rw [Registry.preferredForPath, RegistryTables.mem_ranked_of_odd h hk odd last_odd,
        RegistryTables.hasModel, Table.contains_eq_isSome_get?]
      rfl

/-- Texts, a factory for the empty extension, one for `.txt`, and two for all extensions, of which
the user has chosen the second as the default of the wildcard. -/
def oddRanking : List RegistryCommand :=
  [.addModel .text, .addWidget (sampleFactory "Plain" [""] [""]),
    .addWidget (sampleFactory "Editor" [".txt"] [".txt"]),
    .addWidget (sampleFactory "Any" ["*"] []), .addWidget (sampleFactory "Other" ["*"] []),
    .setDefault "*" (some "Other")]

theorem declared_oddRanking : ∀ f, .widget f ∈ asked oddRanking → f.IsDeclared := by
  have hasked : asked oddRanking = [.model .text, .widget (sampleFactory "Plain" [""] [""]),
      .widget (sampleFactory "Editor" [".txt"] [".txt"]),
      .widget (sampleFactory "Any" ["*"] []), .widget (sampleFactory "Other" ["*"] [])] := rfl
  simp only [hasked, List.mem_cons, List.not_mem_nil, Entry.widget.injEq, reduceCtorEq, or_false,
    false_or]
  rintro f (rfl | rfl | rfl | rfl) <;> exact .asDefaultFor _ (.serving _ (.create _ _ none))

/-- The extension of `x/Notes.TXT` is a normal form, that of `README` is none. -/
theorem path_resolves_as_extension_oddRanking :
    let r := (Catalog.after oddRanking).registry
    r.preferredForPath "x/Notes.TXT" = r.preferred ".txt" ∧
      r.widgetFor? "x/Notes.TXT" "Default" = r.default? ".txt" ∧
      (r.preferred ".txt").map (·.name) = ["Editor", "Any", "Other"] ∧
      ∀ f ∈ r.preferredForPath "README", f.serves Extension.wildcard = true := by
  obtain ⟨-, normal, -⟩ := path_resolves_as_extension oddRanking declared_oddRanking "x/Notes.TXT"
  obtain ⟨-, -, odd⟩ := path_resolves_as_extension oddRanking declared_oddRanking "README"
  have htxt : Extension.ofPath "x/Notes.TXT" = ".txt" := by decide +kernel
  rw [htxt] at normal
  obtain ⟨hsame, hdefault⟩ := normal (by decide +kernel)
  exact ⟨hsame, hdefault "Default" (by decide +kernel), by decide +kernel,
    fun f hf => (((odd (by decide +kernel)).2 f).mp hf).2.2⟩

/-- **Where a path and its extension are resolved differently**: the extension of `README` is empty,
that of `notes.txt ` ends in a blank, and that of `a.*` reads like the wildcard. -/
theorem path_and_extension_differ :
    let r := (Catalog.after oddRanking).registry
    let byPath := fun path => (r.preferredForPath path).map (·.name)
    let byExtension := fun path => (r.preferred (Extension.ofPath path)).map (·.name)
    (byPath "README" = ["Any", "Other"] ∧ byExtension "README" = ["Plain", "Any", "Other"]) ∧
    (byPath "notes.txt " = ["Any", "Other"] ∧
      byExtension "notes.txt " = ["Editor", "Any", "Other"]) ∧
    (byPath "a.*" = ["Any", "Other"] ∧ byExtension "a.*" = ["Other", "Any"]) ∧
    (r.widgetFor? "README" "default").map (·.name) = some "Any" ∧
    (r.default? (Extension.ofPath "README")).map (·.name) = some "Plain" := by
  decide +kernel

end Host

end Folio
