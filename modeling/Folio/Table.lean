/-
# Tables

A table maps keys to values and keeps its entries in the order in which the keys came in.  Every
key occurs at most once as long as entries are only added by `put` and changed by the other
operations here.
-/

namespace Folio

/-- **A table** from keys to values, in order of insertion. -/
structure Table (κ α : Type) where
  entries : List (κ × α) := []
  deriving Repr

namespace Table

variable {κ α : Type} [DecidableEq κ]

/-- The table without entries. -/
def empty : Table κ α := ⟨[]⟩

/-- The value of a key. -/
def get? (t : Table κ α) (key : κ) : Option α := (t.entries.find? (·.1 == key)).map (·.2)

/-- The key has a value. -/
def contains (t : Table κ α) (key : κ) : Bool := t.entries.any (·.1 == key)

/-- The keys, in order of insertion. -/
def keys (t : Table κ α) : List κ := t.entries.map (·.1)

/-- The values, in order of insertion. -/
def values (t : Table κ α) : List α := t.entries.map (·.2)

/-- Gives a key a value: in its place if the key is there, else at the end. -/
def put (t : Table κ α) (key : κ) (value : α) : Table κ α :=
  if t.contains key then ⟨t.entries.map fun e => if e.1 = key then (key, value) else e⟩
  else ⟨t.entries ++ [(key, value)]⟩

/-- Takes a key out. -/
def erase (t : Table κ α) (key : κ) : Table κ α := ⟨t.entries.filter (·.1 != key)⟩

/-- Keeps the entries whose value passes a test. -/
def keepValues (t : Table κ α) (keep : α → Bool) : Table κ α :=
  ⟨t.entries.filter fun e => keep e.2⟩

/-- Changes every value. -/
def mapValues {β : Type} (t : Table κ α) (f : α → β) : Table κ β :=
  ⟨t.entries.map fun e => (e.1, f e.2)⟩

/-! ## Looking up after a change -/

theorem mem_keys_iff_contains {t : Table κ α} {key : κ} :
    key ∈ t.keys ↔ t.contains key = true := by
  simp [keys, contains]

theorem keys_put_of_contains {t : Table κ α} {key : κ} (value : α) (h : t.contains key = true) :
    (t.put key value).keys = t.keys := by
  simp only [put, h, if_true, keys, List.map_map]
  refine List.map_congr_left fun e _ => ?_
  simp only [Function.comp]
  split <;> simp_all

theorem keys_put_of_not_contains {t : Table κ α} {key : κ} (value : α)
    (h : t.contains key = false) : (t.put key value).keys = t.keys ++ [key] := by
  simp [put, h, keys]

theorem find?_replace (key k : κ) (value : α) : ∀ l : List (κ × α),
    (l.map fun e => if e.1 = key then (key, value) else e).find? (·.1 == k) =
      if k = key then (l.find? (·.1 == key)).map fun _ => (key, value) else l.find? (·.1 == k)
  | [] => by simp
  | (a, b) :: rest => by
    have ih := find?_replace key k value rest
    by_cases ha : a = key
    · subst ha
      by_cases hk : k = a
      · subst hk
        simp
      · have hak : (a == k) = false := beq_eq_false_iff_ne.mpr fun e => hk e.symm
        simpa [hak, hk] using ih
    · by_cases hk : a = k
      · subst hk
        simp [ha]
      · have hak : (a == k) = false := beq_eq_false_iff_ne.mpr hk
        have haq : (a == key) = false := beq_eq_false_iff_ne.mpr ha
        simpa [ha, hak, haq] using ih

/-- A key is there exactly if it has a value. -/
theorem contains_eq_isSome_get? (t : Table κ α) (key : κ) :
    t.contains key = (t.get? key).isSome := by
  rw [Bool.eq_iff_iff]
  simp [contains, get?, List.find?_isSome]

/-- **Putting, then looking up**: the key has its new value, all others have what they had. -/
theorem get?_put (t : Table κ α) (key k : κ) (value : α) :
    (t.put key value).get? k = if k = key then some value else t.get? k := by
  unfold put
  split
  · next h =>
    rw [contains_eq_isSome_get?, get?, Option.isSome_map] at h
    obtain ⟨e, he⟩ := Option.isSome_iff_exists.mp h
    simp only [get?, find?_replace, he]
    split <;> simp
  · next h =>
    rw [contains_eq_isSome_get?, get?, Option.isSome_map, Bool.not_eq_true,
      Option.isSome_eq_false_iff, Option.isNone_iff_eq_none] at h
    simp only [get?, List.find?_append]
    split
    · next hk =>
      subst hk
      simp [h]
    · next hk =>
      have hak : (key == k) = false := beq_eq_false_iff_ne.mpr fun e => hk e.symm
      simp [hak]

/-- **Taking a key out, then looking up**: the key has no value, all others have what they had. -/
theorem get?_erase (t : Table κ α) (key k : κ) :
    (t.erase key).get? k = if k = key then none else t.get? k := by
  simp only [get?, erase]
  induction t.entries with
  | nil => simp
  | cons e rest ih =>
    obtain ⟨a, b⟩ := e
    by_cases ha : a = key
    · subst ha
      by_cases hk : k = a
      · simp [hk]
      · have hak : (a == k) = false := beq_eq_false_iff_ne.mpr fun e => hk e.symm
        simpa [hk, hak] using ih
    · have haq : (a != key) = true := bne_iff_ne.mpr ha
      by_cases hk : a = k
      · subst hk
        simp [haq, ha]
      · have hak : (a == k) = false := beq_eq_false_iff_ne.mpr hk
        simpa [haq, hak] using ih

/-! ## Keys that occur once -/

/-- A key with a value has an entry. -/
theorem mem_of_get? {t : Table κ α} {key : κ} {value : α} (h : t.get? key = some value) :
    (key, value) ∈ t.entries := by
  rw [get?, Option.map_eq_some_iff] at h
  obtain ⟨⟨k, v⟩, he, hv⟩ := h
  have hk : k = key := by simpa using List.find?_some he
  simpa [← hk, ← hv] using List.mem_of_find?_eq_some he

theorem mem_keys_of_get? {t : Table κ α} {key : κ} {value : α} (h : t.get? key = some value) :
    key ∈ t.keys :=
  List.mem_map_of_mem (mem_of_get? h)

/-- Where no key occurs twice, an entry is what looking up its key gives. -/
theorem get?_of_mem {t : Table κ α} {key : κ} {value : α} (hd : t.keys.Nodup)
    (h : (key, value) ∈ t.entries) : t.get? key = some value := by
  obtain ⟨entries⟩ := t
  simp only [keys, get?] at *
  induction entries with
  | nil => cases h
  | cons e rest ih =>
    rw [List.map_cons, List.nodup_cons] at hd
    rcases List.mem_cons.mp h with rfl | h
    · simp
    · have hne : (e.1 == key) = false :=
        beq_eq_false_iff_ne.mpr fun he => hd.1 (he ▸ List.mem_map_of_mem h)
      rw [List.find?_cons, hne]
      exact ih hd.2 h

theorem get?_eq_some_iff {t : Table κ α} (hd : t.keys.Nodup) {key : κ} {value : α} :
    t.get? key = some value ↔ (key, value) ∈ t.entries :=
  ⟨mem_of_get?, get?_of_mem hd⟩

theorem nodup_keys_put {t : Table κ α} (key : κ) (value : α) (hd : t.keys.Nodup) :
    (t.put key value).keys.Nodup := by
  cases hc : t.contains key with
  | true => rwa [keys_put_of_contains value hc]
  | false =>
    rw [keys_put_of_not_contains value hc]
    have hn : key ∉ t.keys := by simp [mem_keys_iff_contains, hc]
    exact List.nodup_append.mpr ⟨hd, by simp, by
      rintro a ha b hb rfl
      exact hn (List.mem_singleton.mp hb ▸ ha)⟩

/-- A new key goes to the end. -/
theorem entries_put_of_not_contains {t : Table κ α} {key : κ} (value : α)
    (h : t.contains key = false) : (t.put key value).entries = t.entries ++ [(key, value)] := by
  simp [put, h]

/-- An entry after putting is the new one, or it was there. -/
theorem mem_entries_put {t : Table κ α} {key : κ} {value : α} {e : κ × α}
    (h : e ∈ (t.put key value).entries) : e = (key, value) ∨ e ∈ t.entries := by
  unfold put at h
  split at h
  · obtain ⟨d, hd, rfl⟩ := List.mem_map.mp h
    split
    · exact .inl rfl
    · exact .inr hd
  · rcases List.mem_append.mp h with h | h
    · exact .inr h
    · exact .inl (List.mem_singleton.mp h)

theorem keys_erase (t : Table κ α) (key : κ) : (t.erase key).keys = t.keys.filter (· != key) := by
  simp only [keys, erase, List.filter_map]
  rfl

theorem nodup_keys_erase {t : Table κ α} (key : κ) (hd : t.keys.Nodup) :
    (t.erase key).keys.Nodup := by
  rw [keys_erase]
  exact hd.filter _

omit [DecidableEq κ] in
theorem nodup_keys_keepValues {t : Table κ α} (keep : α → Bool) (hd : t.keys.Nodup) :
    (t.keepValues keep).keys.Nodup :=
  hd.sublist (List.filter_sublist.map _)

/-- Where no key occurs twice, a value that fails the test is lost. -/
theorem get?_keepValues {t : Table κ α} (keep : α → Bool) (hd : t.keys.Nodup) (key : κ) :
    (t.keepValues keep).get? key = (t.get? key).filter keep := by
  ext value
  rw [get?_eq_some_iff (nodup_keys_keepValues keep hd), Option.filter_eq_some_iff,
    get?_eq_some_iff hd]
  exact List.mem_filter

omit [DecidableEq κ] in
@[simp]
theorem keys_mapValues {β : Type} (t : Table κ α) (f : α → β) :
    (t.mapValues f).keys = t.keys := by
  simp [keys, mapValues, Function.comp_def]

@[simp]
theorem get?_mapValues {β : Type} (t : Table κ α) (f : α → β) (key : κ) :
    (t.mapValues f).get? key = (t.get? key).map f := by
  simp [get?, mapValues, List.find?_map, Function.comp_def]

end Table

end Folio
