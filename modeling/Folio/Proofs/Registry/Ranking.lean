/-
# The order in which widget factories are preferred

The factories for an extension are found by going through seven lists of keys and taking each key
where it comes first.  What this yields is said here without the lists: which factories there are
(`mem_ranked`), and for any two of them which comes first.  The class of a factory is the first of
seven properties that it has for the extension; a factory of an earlier class comes before one of a
later class, and within a class the order is that of registration.

The key to the order is what `eraseDups` does with a list: an element comes before another one
exactly if it occurs before the first occurrence of the other (`eraseDups_before`).  In a list of
lists that is a comparison of the lists first, and of the places in one list second.
-/
import Folio.Proofs.Registry.Handles
import Mathlib.Data.List.Nodup
import Mathlib.Data.List.TakeWhile

namespace Folio

/-! ## 1. First occurrences -/

section FirstOccurrences

variable {α : Type} [DecidableEq α]

omit [DecidableEq α] in
/-- What is left out of a list does not bring forward the place where a search stops. -/
theorem mem_takeWhile_of_filter {p q : α → Bool} (hpq : ∀ b, q b = false → p b = true) {x : α} :
    ∀ {l : List α}, x ∈ (l.filter p).takeWhile q → x ∈ l.takeWhile q
  | [], h => h
  | b :: l, h => by
    have ih : x ∈ (l.filter p).takeWhile q → x ∈ l.takeWhile q := mem_takeWhile_of_filter hpq
    cases hq : q b with
    | false => simp [hpq b hq, hq] at h
    | true =>
      rw [List.takeWhile_cons, if_pos hq]
      cases hp : p b with
      | false =>
        rw [List.filter_cons, hp] at h
        exact List.mem_cons_of_mem _ (ih h)
      | true =>
        simp only [List.filter_cons, hp, if_true, List.takeWhile_cons, hq, List.mem_cons] at h
        exact List.mem_cons.mpr (h.imp id ih)

/-- **Without repetitions, an element comes before another one if it occurs before the first
occurrence of the other.** -/
theorem eraseDups_before (l : List α) :
    l.eraseDups.Pairwise fun x y => x ∈ l.takeWhile (· != y) := by
  match l with
  | [] => exact .nil
  | a :: l =>
    rw [List.eraseDups_cons, List.pairwise_cons]
    have ne {y : α} (hy : y ∈ (l.filter fun b => !b == a).eraseDups) : a ≠ y := by
      rintro rfl
      simp [List.mem_eraseDups] at hy
    refine ⟨fun y hy => by simp [ne hy], ?_⟩
    refine (eraseDups_before (l.filter fun b => !b == a)).imp_of_mem fun {x y} _ hy hxy => ?_
    rw [List.takeWhile_cons, if_pos (bne_iff_ne.mpr (ne hy))]
    refine List.mem_cons_of_mem _ (mem_takeWhile_of_filter (fun b hb => ?_) hxy)
    obtain rfl : b = y := by simpa using hb
    simpa using (ne hy).symm
termination_by l.length
decreasing_by
  exact Nat.lt_succ_of_le (List.length_filter_le _ _)

/-- What comes before the first occurrence is not all. -/
theorem length_before_lt {y : α} {l : List α} (hy : y ∈ l) :
    (l.takeWhile (· != y)).length < l.length := by
  refine Nat.lt_of_le_of_ne (List.takeWhile_prefix _).length_le fun hl => ?_
  have hm : y ∈ l.takeWhile (· != y) := by
    rw [(List.takeWhile_prefix _).eq_of_length hl]
    exact hy
  simpa using List.mem_takeWhile_imp hm

/-- **First occurrences in a list of lists**: an element that occurs before another one stands in an
earlier list, or in the same list and there before the other. -/
theorem findIdx_of_before {x y : α} : ∀ {ls : List (List α)}, y ∈ ls.flatten →
    x ∈ ls.flatten.takeWhile (· != y) →
    ls.findIdx (x ∈ ·) < ls.findIdx (y ∈ ·) ∨
      ls.findIdx (x ∈ ·) = ls.findIdx (y ∈ ·) ∧
        ∃ l ∈ ls, y ∈ l ∧ x ∈ l.takeWhile (· != y)
  | l :: ls, hy, hx => by
    rw [List.flatten_cons, List.takeWhile_append] at hx
    rw [List.findIdx_cons, List.findIdx_cons]
    by_cases hyl : y ∈ l
    · have hx : x ∈ l.takeWhile (· != y) := by
        split at hx
        · next hl => exact absurd hl (ne_of_lt (length_before_lt hyl))
        · exact hx
      have hxl : x ∈ l := (List.takeWhile_subset _) hx
      exact .inr ⟨by simp [hxl, hyl], l, List.mem_cons_self, hyl, hx⟩
    · have hyls : y ∈ ls.flatten := by simpa [hyl] using hy
      by_cases hxl : x ∈ l
      · exact .inl (by simp [hxl, hyl])
      · have hx : x ∈ ls.flatten.takeWhile (· != y) := by
          split at hx
          · exact (List.mem_append.mp hx).resolve_left hxl
          · exact absurd ((List.takeWhile_subset _) hx) hxl
        simp only [hxl, hyl, decide_false, cond_false, Nat.add_lt_add_iff_right,
          Nat.add_right_cancel_iff]
        refine (findIdx_of_before hyls hx).imp id fun ⟨he, l', hl', h⟩ => ⟨he, l', ?_, h⟩
        exact List.mem_cons_of_mem _ hl'

/-- In a sublist of a list without repetitions, elements keep their order. -/
theorem idxOf_lt_of_before {l keys : List α} (hs : l.Sublist keys) (hd : keys.Nodup) {x y : α}
    (hy : y ∈ l) (hx : x ∈ l.takeWhile (· != y)) : keys.idxOf x < keys.idxOf y := by
  have hp : keys.Pairwise fun a b => keys.idxOf a < keys.idxOf b := by
    rw [List.pairwise_iff_getElem]
    intro i j hi hj hij
    rwa [hd.idxOf_getElem, hd.idxOf_getElem]
  have hl := hp.sublist hs
  rw [← List.takeWhile_append_dropWhile (p := (· != y)) (l := l)] at hl
  refine (List.pairwise_append.mp hl).2.2 x hx y ?_
  rw [← List.takeWhile_append_dropWhile (p := (· != y)) (l := l), List.mem_append] at hy
  exact hy.resolve_left fun h => by simpa using List.mem_takeWhile_imp h

end FirstOccurrences

/-! ## 2. The classes of a factory -/

namespace RegistryTables

variable {t : RegistryTables}

/-- **The seven properties of a factory for an extension** that decide where it comes: it was
chosen for the extension, it is the default of the extension, of its last segment, of all
extensions, it declares the extension, its last segment, the wildcard. -/
def claimsOn (t : RegistryTables) (extension : String) (f : WidgetFactory) : List Bool :=
  let key := Text.lower f.name
  let last := Extension.finalSegment extension
  [t.overrides.get? extension = some key, t.defaults.get? extension = some key,
    t.defaults.get? last = some key, t.globalDefault = some key, f.serves extension, f.serves last,
    f.serves Extension.wildcard]

/-- **The class of a factory for an extension**: the first of the seven that it has. -/
def classOf (t : RegistryTables) (extension : String) (f : WidgetFactory) : Nat :=
  (t.claimsOn extension f).findIdx id

/-- **A factory is preferred to another one**: its class is better, or it was registered earlier in
the same class. -/
def Precedes (t : RegistryTables) (extension : String) (f g : WidgetFactory) : Prop :=
  t.classOf extension f < t.classOf extension g ∨
    t.classOf extension f = t.classOf extension g ∧
      t.widgets.values.idxOf f < t.widgets.values.idxOf g

/-- A registered factory is kept under its name. -/
theorem get?_widgets_iff (h : t.Consistent) {key : String} {f : WidgetFactory} :
    t.widgets.get? key = some f ↔ f ∈ t.widgets.values ∧ key = Text.lower f.name := by
  rw [Table.get?_eq_some_iff h.widgets_distinct]
  constructor
  · intro hm
    exact ⟨List.mem_map_of_mem hm, h.widgets_named _ hm⟩
  · rintro ⟨hf, rfl⟩
    obtain ⟨e, he, rfl⟩ := List.mem_map.mp hf
    rw [← h.widgets_named e he]
    exact he

theorem declares_iff (h : t.Consistent) {f : WidgetFactory} (hf : f ∈ t.widgets.values)
    {extension : String} :
    t.Declares (Text.lower f.name) extension ↔ f.serves extension = true := by
  have hg := (get?_widgets_iff h).mpr ⟨hf, rfl⟩
  simp [Declares, hg]

theorem mem_candidates (h : t.Consistent) {f : WidgetFactory} (hf : f ∈ t.widgets.values)
    {extension : String} :
    Text.lower f.name ∈ (t.candidates.get? extension).getD [] ↔ f.serves extension = true := by
  rw [h.candidates_eq, mem_declaring h, declares_iff h hf]

/-- A factory and its key have the same place. -/
theorem idxOf_keys (h : t.Consistent) {f : WidgetFactory} (hf : f ∈ t.widgets.values) :
    t.widgets.keys.idxOf (Text.lower f.name) = t.widgets.values.idxOf f := by
  obtain ⟨i, hi, rfl⟩ := List.getElem_of_mem hf
  have hk : t.widgets.keys = t.widgets.values.map fun f => Text.lower f.name := by
    simp only [Table.keys, Table.values, List.map_map]
    exact List.map_congr_left h.widgets_named
  have hd := h.widgets_distinct
  rw [hk] at hd ⊢
  rw [(hd.of_map _).idxOf_getElem]
  have hm : i < (t.widgets.values.map fun f => Text.lower f.name).length := by simpa using hi
  simpa using hd.idxOf_getElem i hm

/-- The first list that has the key is told by the class of the factory. -/
theorem findIdx_classes (h : t.Consistent) {f : WidgetFactory} (hf : f ∈ t.widgets.values)
    (extension : String) :
    (t.classes extension).findIdx (Text.lower f.name ∈ ·) = t.classOf extension f := by
  by_cases hc : Extension.finalSegment extension = extension
  · simp only [classes, classOf, claimsOn, hc, ne_eq, not_true, if_false, List.findIdx_cons,
      List.findIdx_nil, Option.mem_toList, mem_candidates h hf, List.not_mem_nil, decide_false, id,
      Bool.decide_eq_true]
    -- with a single segment the third property is the second one and the sixth is the fifth
    cases decide (t.defaults.get? extension = some (Text.lower f.name)) <;>
      cases f.serves extension <;> rfl
  · simp only [classes, classOf, claimsOn, hc, ne_eq, not_false_eq_true, if_true, List.findIdx_cons,
      List.findIdx_nil, Option.mem_toList, mem_candidates h hf, id, Bool.decide_eq_true]

/-- A default is one of the keys. -/
theorem default_sublist {o : Option String} (ho : ∀ key, o = some key → ∃ e, t.Declares key e) :
    o.toList.Sublist t.widgets.keys := by
  cases o with
  | none => exact List.nil_sublist _
  | some key =>
    obtain ⟨e, f, hf, -⟩ := ho key rfl
    exact List.singleton_sublist.mpr (Table.mem_keys_of_get? hf)

theorem candidates_sublist (h : t.Consistent) (extension : String) :
    ((t.candidates.get? extension).getD []).Sublist t.widgets.keys := by
  rw [h.candidates_eq]
  exact List.filter_sublist.map _

theorem default_declares (h : t.Consistent) {extension key : String}
    (hk : t.defaults.get? extension = some key) : t.Declares key extension :=
  h.defaults_declare _ (Table.mem_of_get? hk)

theorem override_declares (h : t.Consistent) {extension key : String}
    (hk : t.overrides.get? extension = some key) :
    t.Declares key extension ∨ t.Declares key Extension.wildcard :=
  h.overrides_declare _ (Table.mem_of_get? hk)

/-- **Each of the seven lists has its keys in the order of registration.** -/
theorem classes_sublist (h : t.Consistent) {extension : String} {l : List String}
    (hl : l ∈ t.classes extension) : l.Sublist t.widgets.keys := by
  simp only [classes, List.mem_cons, List.not_mem_nil, or_false] at hl
  rcases hl with rfl | rfl | rfl | rfl | rfl | rfl | rfl
  · exact default_sublist fun key hk => (override_declares h hk).elim (⟨_, ·⟩) (⟨_, ·⟩)
  · exact default_sublist fun key hk => ⟨_, default_declares h hk⟩
  · split
    · exact default_sublist fun key hk => ⟨_, default_declares h hk⟩
    · exact List.nil_sublist _
  · exact default_sublist fun key hk => ⟨_, h.globalDefault_declares key hk⟩
  · exact candidates_sublist h _
  · split
    · exact candidates_sublist h _
    · exact List.nil_sublist _
  · exact candidates_sublist h _

/-- **The keys in the seven lists** are those of the factories that declare the extension, its last
segment or the wildcard. -/
theorem mem_flatten_classes (h : t.Consistent) (key extension : String) :
    key ∈ (t.classes extension).flatten ↔ t.Declares key extension ∨
      t.Declares key (Extension.finalSegment extension) ∨ t.Declares key Extension.wildcard := by
  simp only [classes, List.flatten_cons, List.flatten_nil, List.append_nil, List.mem_append,
    Option.mem_toList, h.candidates_eq, mem_declaring h]
  constructor
  · rintro (hk | hk | hk | hk | hk | hk | hk)
    · exact (override_declares h hk).imp id .inr
    · exact .inl (default_declares h hk)
    · split at hk
      · exact .inr (.inl (default_declares h (Option.mem_toList.mp hk)))
      · cases hk
    · exact .inr (.inr (h.globalDefault_declares key hk))
    · exact .inl hk
    · split at hk
      · exact .inr (.inl ((mem_declaring h).mp hk))
      · cases hk
    · exact .inr (.inr hk)
  · rintro (hk | hk | hk)
    · simp [hk]
    · by_cases hc : Extension.finalSegment extension = extension
      · rw [hc] at hk
        simp [hk]
      · simp [hc, (mem_declaring h).mpr hk]
    · simp [hk]

/-! ## 3. The preferred factories -/

/-- **The factories for an extension**, in any order. -/
theorem mem_ranked (h : t.Consistent) (extension : String) (f : WidgetFactory) :
    f ∈ t.ranked extension ↔ f ∈ t.widgets.values ∧ t.hasModel f = true ∧
      (f.serves extension = true ∨ f.serves (Extension.finalSegment extension) = true ∨
        f.serves Extension.wildcard = true) := by
  simp only [ranked, List.mem_filter, List.mem_filterMap, List.mem_eraseDups,
    mem_flatten_classes h, get?_widgets_iff h]
  constructor
  · rintro ⟨⟨key, hs, hf, rfl⟩, hm⟩
    simp only [declares_iff h hf] at hs
    exact ⟨hf, hm, hs⟩
  · rintro ⟨hf, hm, hs⟩
    refine ⟨⟨_, ?_, hf, rfl⟩, hm⟩
    simpa only [declares_iff h hf] using hs

/-- **The factories for an extension, the best first.** -/
theorem pairwise_ranked (h : t.Consistent) (extension : String) :
    (t.ranked extension).Pairwise (t.Precedes extension) := by
  refine List.Pairwise.filter _ (List.pairwise_filterMap.mpr ?_)
  refine (eraseDups_before _).imp_of_mem fun {x y} _ hy hxy f hfx g hgy => ?_
  obtain ⟨hf, rfl⟩ := (get?_widgets_iff h).mp hfx
  obtain ⟨hg, rfl⟩ := (get?_widgets_iff h).mp hgy
  rw [Precedes, ← findIdx_classes h hf, ← findIdx_classes h hg, ← idxOf_keys h hf,
    ← idxOf_keys h hg]
  rcases findIdx_of_before (List.mem_eraseDups.mp hy) hxy with hlt | ⟨heq, l, hl, hyl, hxl⟩
  · exact .inl hlt
  · exact .inr ⟨heq, idxOf_lt_of_before (classes_sublist h hl) h.widgets_distinct hyl hxl⟩

theorem Precedes.ne {extension : String} {f g : WidgetFactory} (h : t.Precedes extension f g) :
    f ≠ g := by
  rintro rfl
  rcases h with h | ⟨-, h⟩ <;> exact absurd h (Nat.lt_irrefl _)

end RegistryTables

open Host in
/-- **The preferred factories of any registry that commands lead to.**  The factories are kept in
the order of registration.  The preferred ones are the registered factories with a registered model
factory that declare the normal form of the extension, its last segment or the wildcard, each once,
and of any two of them the better one comes first. -/
theorem preferred_exact_ordered (commands : List RegistryCommand)
    (declared : ∀ f, .widget f ∈ asked commands → f.IsDeclared) (extension : String) :
    let c := Catalog.after commands
    let r := c.registry
    let normal := Extension.normalize extension
    r.widgets.map .widget = (standing (asked commands) c.held).filter (·.kind = .widgetFactory) ∧
    (r.preferred extension).Nodup ∧
    (∀ f, f ∈ r.preferred extension ↔ f ∈ r.widgets ∧ (r.model? f.modelName).isSome ∧
      (f.serves normal = true ∨ f.serves (Extension.finalSegment normal) = true ∨
        f.serves Extension.wildcard = true)) ∧
    (r.preferred extension).Pairwise (r.tables.Precedes normal) := by
  have h := Catalog.consistent_after declared
  have ho := RegistryTables.pairwise_ranked h (Extension.normalize extension)
  refine ⟨(Catalog.accounts_after declared).entries .widgetFactory,
    ho.imp RegistryTables.Precedes.ne, fun f => ?_, ho⟩
  simp only [Registry.preferred, RegistryTables.mem_ranked h, RegistryTables.hasModel,
    Table.contains_eq_isSome_get?, Registry.widgets, Registry.model?]

/-- A factory that shows texts with some extensions and asks to be the default for some. -/
def sampleFactory (name : String) (extensions defaultFor : List String) : WidgetFactory :=
  ((WidgetFactory.create name "text").serving extensions).asDefaultFor defaultFor

open Host in
/-- One factory is chosen by the user, one is a default of the last segment, one the default of all
extensions, and one is a candidate only. -/
def sampleRanking : List RegistryCommand :=
  [.addModel .text, .addWidget (sampleFactory "Tree" [".json"] []),
    .addWidget (sampleFactory "Any" ["*"] ["*"]),
    .addWidget (sampleFactory "Json" ["json", "table.json"] ["json"]),
    .addWidget (sampleFactory "Grid" ["table.json"] []), .setDefault "Table.Json" (some "grid")]

open Host in
theorem preferred_exact_ordered_sample :
    let r := (Catalog.after sampleRanking).registry
    (r.preferred "TABLE.JSON").map (·.name) = ["Grid", "Json", "Any", "Tree"] ∧
      (r.preferred "TABLE.JSON").Nodup ∧
      (r.preferred "TABLE.JSON").Pairwise (r.tables.Precedes ".table.json") := by
  have hd : ∀ f, .widget f ∈ asked sampleRanking → f.IsDeclared := by
    have ha : asked sampleRanking = [.model .text, .widget (sampleFactory "Tree" [".json"] []),
        .widget (sampleFactory "Any" ["*"] ["*"]),
        .widget (sampleFactory "Json" ["json", "table.json"] ["json"]),
        .widget (sampleFactory "Grid" ["table.json"] [])] := rfl
    simp only [ha, List.mem_cons, List.not_mem_nil, Entry.widget.injEq, reduceCtorEq, or_false,
      false_or]
    rintro f (rfl | rfl | rfl | rfl) <;> exact .asDefaultFor _ (.serving _ (.create _ _ none))
  obtain ⟨-, hn, -, ho⟩ := preferred_exact_ordered sampleRanking hd "TABLE.JSON"
  have hx : Extension.normalize "TABLE.JSON" = ".table.json" := by decide +kernel
  rw [hx] at ho
  exact ⟨by decide +kernel, hn, ho⟩

end Folio
