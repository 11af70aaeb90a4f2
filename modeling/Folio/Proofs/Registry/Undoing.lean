/-
# What is left of a widget factory that was removed

To register a factory of widgets enters it into several tables: among the factories, among the
candidates of each extension that it serves, and as the default of the extensions for which it asks
to be.  To remove it takes its key out of all of them.

Candidates and factories are lists that grew at their end, so taking the key out gives back what was
there.  A default is a single place: the factory has taken it from the one that was there before,
and removing it leaves the place empty.  So a registration that is taken back leaves the tables as
they were without the defaults that the factory took (`eraseWidget_putWidget`), and it leaves no
trace if these places were empty before.
-/
import Folio.Proofs.Registry.Ranking

namespace Folio

/-! ## 1. Tables with entries left out -/

namespace Table

variable {κ α : Type} [DecidableEq κ]

/-- Keeps the entries whose key passes a test. -/
def keepKeys (t : Table κ α) (keep : κ → Bool) : Table κ α := ⟨t.entries.filter fun e => keep e.1⟩

theorem get?_keepKeys (t : Table κ α) (keep : κ → Bool) (key : κ) :
    (t.keepKeys keep).get? key = if keep key then t.get? key else none := by
  simp only [get?, keepKeys]
  induction t.entries with
  | nil => simp
  | cons e rest ih =>
    by_cases hp : keep e.1 = true
    · by_cases hk : e.1 = key
      · subst hk
        simp [hp]
      · have hb : (e.1 == key) = false := beq_eq_false_iff_ne.mpr hk
        simpa [hp, hb] using ih
    · rw [List.filter_cons, if_neg hp, ih]
      by_cases hk : e.1 = key
      · subst hk
        simp [hp]
      · simp [hk]

omit [DecidableEq κ] in
theorem keepKeys_of_forall {t : Table κ α} {keep : κ → Bool}
    (h : ∀ e ∈ t.entries, keep e.1 = true) : t.keepKeys keep = t := by
  rw [keepKeys, List.filter_eq_self.mpr h]

omit [DecidableEq κ] in
theorem keepKeys_keepKeys (t : Table κ α) (keep keep' : κ → Bool) :
    (t.keepKeys keep).keepKeys keep' = t.keepKeys fun key => keep key && keep' key := by
  simp [keepKeys, List.filter_filter, Bool.and_comm]

/-- Where the entry that is put fails a test, what passes it is what stood under other keys. -/
theorem filter_put {p : κ × α → Bool} {key : κ} {value : α} (h : p (key, value) = false)
    (t : Table κ α) :
    (t.put key value).entries.filter p = (t.entries.filter p).filter (·.1 != key) := by
  have hreplace (l : List (κ × α)) :
      (l.map fun e => if e.1 = key then (key, value) else e).filter p =
        (l.filter p).filter (·.1 != key) := by
    induction l with
    | nil => rfl
    | cons e l ih => by_cases hk : e.1 = key <;> cases hp : p e <;> simp [hk, h, hp, ih]
  have hother (hc : t.contains key = false) : ∀ e ∈ t.entries, (e.1 != key) = true := by
    simpa [contains] using hc
  cases hc : t.contains key with
  | true => simp [put, hc, hreplace]
  | false =>
    have hkept : (t.entries.filter p).filter (·.1 != key) = t.entries.filter p :=
      List.filter_eq_self.mpr fun e he => hother hc e (List.mem_filter.mp he).1
    rw [entries_put_of_not_contains _ hc, hkept, List.filter_append]
    simp [h]

theorem erase_put (t : Table κ α) (key : κ) (value : α) :
    (t.put key value).erase key = t.erase key := by
  rw [erase, filter_put (by simp), List.filter_filter]
  simp [erase]

theorem erase_of_not_contains {t : Table κ α} {key : κ} (h : t.contains key = false) :
    t.erase key = t := by
  have hall : ∀ e ∈ t.entries, (e.1 != key) = true := by simpa [contains] using h
  rw [erase, List.filter_eq_self.mpr hall]

/-- Putting what is there changes nothing. -/
theorem put_of_get? {t : Table κ α} (hd : t.keys.Nodup) {key : κ} {value : α}
    (h : t.get? key = some value) : t.put key value = t := by
  have hc : t.contains key = true := by rw [contains_eq_isSome_get?, h, Option.isSome_some]
  have hsame : ∀ e ∈ t.entries, (if e.1 = key then (key, value) else e) = e := by
    intro e he
    split
    · next hk =>
      have hv := get?_of_mem hd he
      rw [hk, h] at hv
      exact Prod.ext hk.symm (Option.some.inj hv)
    · rfl
  simp [put, hc, List.map_congr_left hsame]

theorem mapValues_put {β : Type} (t : Table κ α) (key : κ) (value : α) (g : α → β) :
    (t.put key value).mapValues g = (t.mapValues g).put key (g value) := by
  have hc : (t.mapValues g).contains key = t.contains key := by
    simp only [contains_eq_isSome_get?, get?_mapValues, Option.isSome_map]
  unfold put
  rw [hc]
  split
  · simp only [mapValues, List.map_map]
    congr 1
    refine List.map_congr_left fun e _ => ?_
    by_cases hk : e.1 = key <;> simp [hk]
  · simp [mapValues]

omit [DecidableEq κ] in
theorem keepValues_of_forall {t : Table κ α} {keep : α → Bool}
    (h : ∀ e ∈ t.entries, keep e.2 = true) : t.keepValues keep = t := by
  rw [keepValues, List.filter_eq_self.mpr h]

theorem keepValues_put {keep : α → Bool} {value : α} (h : keep value = false) (t : Table κ α)
    (key : κ) : (t.put key value).keepValues keep = (t.keepValues keep).keepKeys (· != key) := by
  rw [keepValues, filter_put h]
  rfl

end Table

/-! ## 2. Taking a registration back -/

/-- The factory becomes the default of an extension when it is registered: it asks for it, and it
serves the extension. -/
def WidgetFactory.isDefaultFor (f : WidgetFactory) (extension : String) : Bool :=
  f.defaultFor.contains extension && f.serves extension

namespace RegistryTables

variable {t : RegistryTables} {key : String} {f : WidgetFactory}

/-- **The tables without some defaults.**  The default for every extension is that of the
wildcard. -/
def withoutDefaults (t : RegistryTables) (taken : String → Bool) : RegistryTables :=
  { t with
    globalDefault := if taken Extension.wildcard then none else t.globalDefault
    defaults := t.defaults.keepKeys fun e => e == Extension.wildcard || !taken e }

theorem withoutDefaults_withoutDefaults (taken taken' : String → Bool) :
    (t.withoutDefaults taken).withoutDefaults taken' =
      t.withoutDefaults fun e => taken e || taken' e := by
  simp only [withoutDefaults, Table.keepKeys_keepKeys]
  congr 1
  · by_cases h : taken Extension.wildcard = true <;> simp [h]
  · congr 1
    funext e
    cases e == Extension.wildcard <;> simp

/-- **To take no default away that is there** leaves the tables. -/
theorem withoutDefaults_eq {taken : String → Bool}
    (hg : taken Extension.wildcard = true → t.globalDefault = none)
    (hd : ∀ e ∈ t.defaults.entries, e.1 ≠ Extension.wildcard → taken e.1 = false) :
    t.withoutDefaults taken = t := by
  have hglobal : (if taken Extension.wildcard then none else t.globalDefault) =
      t.globalDefault := by
    split
    · next h => exact (hg h).symm
    · rfl
  have hdefaults : (t.defaults.keepKeys fun e => e == Extension.wildcard || !taken e) =
      t.defaults := by
    refine Table.keepKeys_of_forall fun e he => ?_
    by_cases hw : e.1 = Extension.wildcard
    · simp [hw]
    · simp [hd e he hw]
  rw [withoutDefaults, hglobal, hdefaults]

/-- A claim that is taken back leaves no default. -/
theorem eraseWidget_claimDefault (t : RegistryTables) (key : String) (f : WidgetFactory)
    (extension : String) :
    (claimDefault key f t extension).eraseWidget key =
      (t.eraseWidget key).withoutDefaults fun e => e == extension && f.serves e := by
  unfold claimDefault
  split
  · next hs =>
    have hs : f.serves extension = false := by simpa using hs
    have hnone (e : String) : (e == extension && f.serves e) = false := by
      by_cases he : e = extension
      · simp [he, hs]
      · simp [he]
    exact (withoutDefaults_eq (by simp [hnone]) (by simp [hnone])).symm
  · next hs =>
    have hs : f.serves extension = true := by simpa using hs
    split
    · next hw =>
      subst hw
      have hkeep : (t.eraseWidget key).defaults.keepKeys (fun e => e == Extension.wildcard ||
          !(e == Extension.wildcard && f.serves e)) = (t.eraseWidget key).defaults :=
        Table.keepKeys_of_forall fun e _ => by cases e.1 == Extension.wildcard <;> rfl
      simp only [withoutDefaults, hkeep]
      simp [eraseWidget, hs]
    · next hw =>
      have hkeep : (fun e => e == Extension.wildcard || !(e == extension && f.serves e)) =
          fun e => e != extension := by
        funext e
        by_cases he : e = extension
        · simp [he, hw, hs]
        · have hb : (e == extension) = false := beq_eq_false_iff_ne.mpr he
          simp [hb, bne]
      have hw : (Extension.wildcard == extension) = false := beq_eq_false_iff_ne.mpr (Ne.symm hw)
      simp only [withoutDefaults, hkeep, hw]
      simp [eraseWidget, Table.keepValues_put]

theorem eraseWidget_foldl_claimDefault (t : RegistryTables) (key : String) (f : WidgetFactory)
    (extensions : List String) :
    (extensions.foldl (claimDefault key f) t).eraseWidget key =
      (t.eraseWidget key).withoutDefaults fun e => extensions.contains e && f.serves e := by
  induction extensions generalizing t with
  | nil => exact (withoutDefaults_eq (by simp) (by simp)).symm
  | cons d rest ih =>
    rw [List.foldl_cons, ih, eraseWidget_claimDefault, withoutDefaults_withoutDefaults]
    congr 1
    funext e
    rw [List.contains_cons, Bool.and_or_distrib_right]

/-- What is left of the candidates when a factory is taken out of them. -/
def cleared (key : String) (candidates : Table String (List String)) : Table String (List String) :=
  (candidates.mapValues fun names => names.filter (· != key)).keepValues fun names => !names.isEmpty

/-- A candidate that is taken out again leaves no trace. -/
theorem cleared_put {c : Table String (List String)} (hd : c.keys.Nodup) (key extension : String) :
    cleared key (c.put extension ((c.get? extension).getD [] ++ [key])) = cleared key c := by
  have hkeys : (c.mapValues fun names => names.filter (· != key)).keys.Nodup := by simpa using hd
  have hlast : ((c.get? extension).getD [] ++ [key]).filter (· != key) =
      ((c.get? extension).getD []).filter (· != key) := by simp
  rw [cleared, cleared, Table.mapValues_put, hlast]
  cases hnames : ((c.get? extension).getD []).filter (· != key) with
  | nil =>
    -- nobody else is a candidate of the extension, so nothing is kept under it
    rw [Table.keepValues_put (by simp)]
    refine Table.keepKeys_of_forall fun e he => bne_iff_ne.mpr ?_
    rintro rfl
    obtain ⟨hm, hne⟩ := List.mem_filter.mp he
    have hget := Table.get?_of_mem hkeys hm
    rw [Table.get?_mapValues, Option.map_eq_some_iff] at hget
    obtain ⟨names, hc, hfilter⟩ := hget
    rw [hc, Option.getD_some, hfilter] at hnames
    simp [hnames] at hne
  | cons =>
    have hget : c.get? extension = some ((c.get? extension).getD []) := by
      cases hc : c.get? extension with
      | none => simp [hc] at hnames
      | some names => rfl
    rw [Table.put_of_get? hkeys]
    rw [Table.get?_mapValues, hget, Option.map_some, hnames]

theorem cleared_enlist {c : Table String (List String)} (hd : c.keys.Nodup) (key : String)
    (extensions : List String) : cleared key (enlist key c extensions) = cleared key c := by
  unfold enlist
  induction extensions generalizing c with
  | nil => rfl
  | cons e rest ih => rw [List.foldl_cons, ih (Table.nodup_keys_put _ _ hd), cleared_put hd]

theorem ne_of_declares (free : t.widgets.contains key = false) {k e : String}
    (h : t.Declares k e) : (k != key) = true := by
  refine bne_iff_ne.mpr ?_
  rintro rfl
  obtain ⟨g, hg, -⟩ := h
  rw [Table.contains_eq_isSome_get?, hg] at free
  cases free

/-- A factory that is not there is nobody's candidate. -/
theorem cleared_of_free (h : t.Consistent) (free : t.widgets.contains key = false) :
    cleared key t.candidates = t.candidates := by
  have hnames : ∀ e ∈ t.candidates.entries, e.2.filter (· != key) = e.2 ∧ e.2 ≠ [] := by
    intro e he
    have hget := Table.get?_of_mem h.candidates_distinct he
    refine ⟨List.filter_eq_self.mpr fun k hk => ?_, fun hnil => ?_⟩
    · have hdeclares : t.Declares k e.1 := by
        rw [← mem_declaring h, ← h.candidates_eq, hget]
        exact hk
      exact ne_of_declares free hdeclares
    · exact h.candidates_ne_nil e.1 (hnil ▸ hget)
  have hmap : (t.candidates.mapValues fun names => names.filter (· != key)) = t.candidates := by
    have hsame : ∀ e ∈ t.candidates.entries, (e.1, e.2.filter (· != key)) = e :=
      fun e he => Prod.ext rfl (hnames e he).1
    rw [Table.mapValues, List.map_congr_left hsame, List.map_id']
  rw [cleared, hmap]
  exact Table.keepValues_of_forall fun e he => by simpa using (hnames e he).2

/-- To take out a factory that is not there changes nothing. -/
theorem eraseWidget_of_free (h : t.Consistent) (free : t.widgets.contains key = false) :
    t.eraseWidget key = t := by
  have hglobal : (if t.globalDefault = some key then none else t.globalDefault) =
      t.globalDefault := by
    split
    · next hk => simpa using ne_of_declares free (h.globalDefault_declares key hk)
    · rfl
  have hdefaults : t.defaults.keepValues (· != key) = t.defaults :=
    Table.keepValues_of_forall fun e he => ne_of_declares free (h.defaults_declare e he)
  have hoverrides : t.overrides.keepValues (· != key) = t.overrides :=
    Table.keepValues_of_forall fun e he =>
      (h.overrides_declare e he).elim (ne_of_declares free) (ne_of_declares free)
  have hcandidates := cleared_of_free h free
  unfold cleared at hcandidates
  rw [eraseWidget, Table.erase_of_not_contains free, hglobal, hdefaults, hoverrides, hcandidates]

/-- **A registration that is taken back** leaves the tables without the defaults that it took. -/
theorem eraseWidget_putWidget (h : t.Consistent) (free : t.widgets.contains key = false) :
    (t.putWidget key f).eraseWidget key = t.withoutDefaults f.isDefaultFor := by
  have hc := claims_foldl (t := t) key f f.defaultFor
  have hclear : cleared key (enlist key (f.defaultFor.foldl (claimDefault key f) t).candidates
      f.extensions) = cleared key (f.defaultFor.foldl (claimDefault key f) t).candidates := by
    rw [hc.rest]
    exact cleared_enlist h.candidates_distinct key f.extensions
  have hput : (t.putWidget key f).eraseWidget key =
      (f.defaultFor.foldl (claimDefault key f) t).eraseWidget key := by
    simp only [putWidget, foldl_addCandidate]
    simp only [eraseWidget, withCandidates, Table.erase_put]
    exact congrArg _ hclear
  rw [hput, eraseWidget_foldl_claimDefault, eraseWidget_of_free h free]
  rfl

theorem Consistent.withoutDefaults (taken : String → Bool) (h : t.Consistent) :
    (t.withoutDefaults taken).Consistent :=
  { h with
    defaults_declare := fun e he => h.defaults_declare e (List.mem_filter.mp he).1
    globalDefault_declares := fun k hk => by
      refine h.globalDefault_declares k ?_
      simp only [RegistryTables.withoutDefaults] at hk
      split at hk
      · cases hk
      · exact hk }

/-! ## 3. What is resolved then -/

/-- **A default that counts for an extension is displaced** by the factory: that of the extension,
given in normal form, of its last segment, or of all extensions. -/
def Displaces (t : RegistryTables) (f : WidgetFactory) (extension : String) : Prop :=
  (∃ e ∈ [extension, Extension.finalSegment extension],
    e ≠ Extension.wildcard ∧ f.isDefaultFor e = true ∧ (t.defaults.get? e).isSome) ∨
  f.isDefaultFor Extension.wildcard = true ∧ t.globalDefault.isSome

instance (t : RegistryTables) (f : WidgetFactory) (extension : String) :
    Decidable (t.Displaces f extension) :=
  inferInstanceAs (Decidable (_ ∨ _))

/-- **The same factories are found**, in an order of their own. -/
theorem ranked_withoutDefaults_perm (h : t.Consistent) (taken : String → Bool)
    (extension : String) :
    ((t.withoutDefaults taken).ranked extension).Perm (t.ranked extension) := by
  have h' := h.withoutDefaults taken
  have hnodup {s : RegistryTables} (hs : s.Consistent) : (s.ranked extension).Nodup :=
    (pairwise_ranked hs extension).imp Precedes.ne
  refine (List.perm_ext_iff_of_nodup (hnodup h') (hnodup h)).mpr fun g => ?_
  rw [mem_ranked h', mem_ranked h]
  rfl

/-- **They are found in the same order** where no default is displaced. -/
theorem ranked_withoutDefaults (h : ¬ t.Displaces f extension) :
    (t.withoutDefaults f.isDefaultFor).ranked extension = t.ranked extension := by
  obtain ⟨hd, hg⟩ := not_or.mp h
  have hdefault : ∀ e ∈ [extension, Extension.finalSegment extension],
      (t.withoutDefaults f.isDefaultFor).defaults.get? e = t.defaults.get? e := by
    intro e he
    rw [withoutDefaults, Table.get?_keepKeys]
    split
    · rfl
    · next hk =>
      simp only [Bool.or_eq_true, beq_iff_eq, Bool.not_eq_true', not_or, Bool.not_eq_false] at hk
      refine (Option.not_isSome_iff_eq_none.mp fun hs => hd ?_).symm
      exact ⟨e, he, hk.1, hk.2, hs⟩
  have hglobal : (t.withoutDefaults f.isDefaultFor).globalDefault = t.globalDefault := by
    rw [withoutDefaults]
    split
    · next hw => exact (Option.not_isSome_iff_eq_none.mp fun hs => hg ⟨hw, hs⟩).symm
    · rfl
  have hclasses : (t.withoutDefaults f.isDefaultFor).classes extension = t.classes extension := by
    rw [classes, classes, hdefault _ (by simp), hdefault _ (by simp), hglobal]
    rfl
  rw [ranked, ranked, hclasses]
  rfl

end RegistryTables

namespace Registry

open RegistryTables

variable {r : Registry}

/-- What is registered has passed the checks. -/
theorem registered_of_checks {invalid taken : Prop} {_ : Decidable invalid} {_ : Decidable taken}
    {error error' : RegistrationError} {yes : Registry × Registration} {handle : Handle}
    (h : (if invalid then (r, .rejected error)
      else if taken then (r, .rejected error') else yes).2 = .registered handle) :
    ¬ taken ∧ (if invalid then (r, .rejected error)
      else if taken then (r, .rejected error') else yes) = yes := by
  split at h
  · cases h
  · next hn =>
    split at h
    · cases h
    · next hf => exact ⟨hf, by rw [if_neg hn, if_neg hf]⟩

theorem addWidget_registered {f : WidgetFactory} {handle : Handle}
    (h : (r.addWidget f).2 = .registered handle) :
    handle = (Entry.widget f).handle ∧ r.tables.widgets.contains (Text.lower f.name) = false ∧
      (r.addWidget f).1.tables = r.tables.putWidget (Text.lower f.name) f := by
  obtain ⟨free, done⟩ : ¬ r.tables.widgets.contains (Text.lower f.name) = true ∧
      r.addWidget f = r.accept (r.tables.putWidget (Text.lower f.name) f) .widgetFactory
        (Text.lower f.name) f.name := registered_of_checks h
  rw [done] at h ⊢
  exact ⟨(Registration.registered.inj h).symm, by simpa using free, rfl⟩

/-- **The tables after a registration was taken back.** -/
theorem tables_unregister_addWidget (h : r.tables.Consistent) {f : WidgetFactory} {handle : Handle}
    (accepted : (r.addWidget f).2 = .registered handle) :
    ((r.addWidget f).1.unregister handle).tables = r.tables.withoutDefaults f.isDefaultFor := by
  obtain ⟨rfl, free, htables⟩ := addWidget_registered accepted
  have hthere : (r.addWidget f).1.isRegistered (Entry.widget f).handle = true := by
    simp only [isRegistered, Entry.handle, Entry.kind, Entry.key, Entry.name, htables, putWidget]
    rw [Table.contains_eq_isSome_get?, Table.get?_put, if_pos rfl]
    rfl
  rw [unregister, if_pos hthere, ← eraseWidget_putWidget h free, ← htables]
  rfl

end Registry

/-! ## 4. The theorem -/

namespace Host

/-- **What is left of a widget factory that was registered and removed again**, in any registry that
commands lead to: the tables are what they were without the defaults that the factory took.  So the
factories are the same ones, by name and in their order, and the same ones are found for every
extension and every path.  They are found in the same order, and the default is the same one, where
the factory has displaced no default that counts for the extension. -/
theorem unregister_undoes_addWidget (commands : List RegistryCommand)
    (declared : ∀ f, .widget f ∈ asked commands → f.IsDeclared) (f : WidgetFactory)
    (handle : Handle)
    (accepted : ((Catalog.after commands).registry.addWidget f).2 = .registered handle) :
    let r := (Catalog.after commands).registry
    let r' := (r.addWidget f).1.unregister handle
    r'.tables = r.tables.withoutDefaults f.isDefaultFor ∧
    (∀ name, r'.widget? name = r.widget? name) ∧ r'.widgets = r.widgets ∧
    (∀ extension, (r'.preferred extension).Perm (r.preferred extension)) ∧
    (∀ path, (r'.preferredForPath path).Perm (r.preferredForPath path)) ∧
    (∀ extension, ¬ r.tables.Displaces f (Extension.normalize extension) →
      r'.preferred extension = r.preferred extension ∧
        r'.default? extension = r.default? extension) ∧
    ∀ path, ¬ r.tables.Displaces f (Extension.ofPath path) →
      r'.preferredForPath path = r.preferredForPath path ∧
        ∀ name, r'.widgetFor? path name = r.widgetFor? path name := by
  intro r r'
  have h : r.tables.Consistent := Catalog.consistent_after declared
  have htables : r'.tables = r.tables.withoutDefaults f.isDefaultFor :=
    Registry.tables_unregister_addWidget h accepted
  have hwidget (name : String) : r'.widget? name = r.widget? name := by
    rw [Registry.widget?, htables]
    rfl
  refine ⟨htables, hwidget, ?_, fun extension => ?_, fun path => ?_, fun extension hd => ?_,
    fun path hd => ?_⟩
  · rw [Registry.widgets, htables]
    rfl
  · rw [Registry.preferred, htables]
    exact RegistryTables.ranked_withoutDefaults_perm h _ _
  · rw [Registry.preferredForPath, htables]
    exact RegistryTables.ranked_withoutDefaults_perm h _ _
  · have hsame : r'.preferred extension = r.preferred extension := by
      rw [Registry.preferred, htables, RegistryTables.ranked_withoutDefaults hd]
      rfl
    exact ⟨hsame, by rw [Registry.default?, hsame]; rfl⟩
  · have hsame : r'.preferredForPath path = r.preferredForPath path := by
      rw [Registry.preferredForPath, htables, RegistryTables.ranked_withoutDefaults hd]
      rfl
    refine ⟨hsame, fun name => ?_⟩
    rw [Registry.widgetFor?, hsame, hwidget]
    rfl

/-- Texts, a factory for `.txt`, and one that is the default for `.txt`. -/
def twoEditors : List RegistryCommand :=
  [.addModel .text, .addWidget (sampleFactory "Plain" [".txt"] []),
    .addWidget (sampleFactory "Editor" [".txt"] [".txt"])]

theorem declared_twoEditors : ∀ f, .widget f ∈ asked twoEditors → f.IsDeclared := by
  have hasked : asked twoEditors = [.model .text, .widget (sampleFactory "Plain" [".txt"] []),
      .widget (sampleFactory "Editor" [".txt"] [".txt"])] := rfl
  simp only [hasked, List.mem_cons, List.not_mem_nil, Entry.widget.injEq, reduceCtorEq, or_false,
    false_or]
  rintro f (rfl | rfl) <;> exact .asDefaultFor _ (.serving _ (.create _ _ none))

/-- A factory that becomes the default of another extension displaces nothing. -/
theorem unregister_undoes_addWidget_twoEditors :
    let r := (Catalog.after twoEditors).registry
    let notes := sampleFactory "Notes" [".md", ".txt"] [".md"]
    let r' := (r.addWidget notes).1.unregister (Entry.widget notes).handle
    r'.preferred "TXT" = r.preferred "TXT" ∧
      (r'.preferred "TXT").map (·.name) = ["Editor", "Plain"] ∧
      r'.widgetFor? "x/a.md" "default" = r.widgetFor? "x/a.md" "default" := by
  have hall := unregister_undoes_addWidget twoEditors declared_twoEditors
    (sampleFactory "Notes" [".md", ".txt"] [".md"]) _ (by rfl)
  obtain ⟨-, -, -, -, -, hextension, hpath⟩ := hall
  have htxt := (hextension "TXT" (by decide +kernel)).1
  exact ⟨htxt, htxt ▸ by decide +kernel, (hpath "x/a.md" (by decide +kernel)).2 "default"⟩

/-- **The default that was displaced does not come back**: the factory that was found first before
is found last now. -/
theorem displaced_default_stays_lost :
    let r := (Catalog.after twoEditors).registry
    let viewer := sampleFactory "Viewer" [".txt"] [".txt"]
    let r' := (r.addWidget viewer).1.unregister (Entry.widget viewer).handle
    (r.addWidget viewer).2 = .registered (Entry.widget viewer).handle ∧
    (r.default? ".txt").map (·.name) = some "Editor" ∧
    (r'.default? ".txt").map (·.name) = some "Plain" ∧
    (r.preferred ".txt").map (·.name) = ["Editor", "Plain"] ∧
    (r'.preferred ".txt").map (·.name) = ["Plain", "Editor"] := by
  decide +kernel

end Host

end Folio
