/-
# Extensions in normal form

Which extensions are left as they are by normalizing.  `IsNormal` says it without reference to the
operation: the wildcard, or a dot and small characters, not the star alone, that do not end in a
blank.  Normalizing yields such an extension (`isNormal_normalizeChars`) and leaves one
(`IsNormal.normalizeChars_eq`), so the normal forms are what normalizing leaves.

The extension of a path is in lower case and starts with a dot, but it is not trimmed, it may be
empty, and a star in it is a character like any other.  These three are all that keeps it from being
a normal form (`normalize_ofPath_iff`), and if it is none then its last segment is none either
(`finalSegment_not_normal`).
-/
import Folio.Text.Extension
import Folio.Proofs.Text.Lower
import Mathlib.Data.List.Induction

namespace Folio

/-! ## 1. Ends of texts -/

namespace Text

/-- The text does not end in a blank. -/
def EndsUnblank (cs : List Char) : Prop := ∀ c ∈ cs.getLast?, isBlank c = false

instance (cs : List Char) : Decidable (EndsUnblank cs) :=
  inferInstanceAs (Decidable (∀ c ∈ cs.getLast?, isBlank c = false))

theorem endsUnblank_concat (cs : List Char) (c : Char) :
    EndsUnblank (cs ++ [c]) ↔ isBlank c = false := by
  simp [EndsUnblank]

theorem trimEnd_concat_of_not_blank {c : Char} (h : isBlank c = false) (cs : List Char) :
    trimEnd (cs ++ [c]) = cs ++ [c] := by
  simp [trimEnd, h]

theorem trimEnd_concat_of_blank {c : Char} (h : isBlank c = true) (cs : List Char) :
    trimEnd (cs ++ [c]) = trimEnd cs := by
  simp [trimEnd, h]

/-- **Trimming leaves no blank at the end.** -/
theorem endsUnblank_trimEnd (cs : List Char) : EndsUnblank (trimEnd cs) := by
  induction cs using List.reverseRecOn with
  | nil => exact fun c hc => nomatch hc
  | append_singleton cs c ih =>
    cases h : isBlank c with
    | true => rwa [trimEnd_concat_of_blank h]
    | false => rwa [trimEnd_concat_of_not_blank h, endsUnblank_concat]

theorem EndsUnblank.trimEnd_eq {cs : List Char} (h : EndsUnblank cs) : trimEnd cs = cs := by
  rcases cs.eq_nil_or_concat' with rfl | ⟨cs, c, rfl⟩
  · rfl
  · exact trimEnd_concat_of_not_blank ((endsUnblank_concat _ _).mp h) cs

/-- Lower-casing puts no blank at the end. -/
theorem EndsUnblank.lowerAfter {cs : List Char} (h : EndsUnblank cs) (before : List Char) :
    EndsUnblank (lowerAfter before cs) := by
  intro c hc
  by_contra hb
  have hblank : isBlank c = true := by simpa using hb
  exact hb (h c (blank_of_getLast?_lowerAfter hc hblank))

theorem EndsUnblank.cons {cs : List Char} (h : EndsUnblank cs) {c : Char} (hc : isBlank c = false) :
    EndsUnblank (c :: cs) := by
  cases cs with
  | nil => exact (endsUnblank_concat [] c).mpr hc
  | cons d cs => simpa [EndsUnblank, List.getLast?_cons_cons] using h

end Text

namespace Extension

open Text

/-! ## 2. Normal forms -/

/-- **An extension in normal form.** -/
inductive IsNormal : List Char → Prop where
  | wildcard : IsNormal ['*']
  | dotted {rest : List Char} (not_star : rest ≠ ['*']) (small : ∀ c ∈ rest, IsSmall c)
      (ends : EndsUnblank ('.' :: rest)) : IsNormal ('.' :: rest)

theorem isSmall_dot : IsSmall '.' := by
  constructor <;> decide +kernel

theorem eq_of_lowerChars_eq {cs ds : List Char} (hd : ∀ d ∈ ds, d.toNat < 97)
    (h : lowerChars cs = ds) : cs = ds := by
  rw [← h]
  exact (eq_of_lowerAfter_lt fun d hm => hd d (h ▸ hm)).symm

/-- **Normalizing yields a normal form.** -/
theorem isNormal_normalizeChars (cs : List Char) : IsNormal (normalizeChars cs) := by
  unfold normalizeChars
  dsimp only
  split
  · exact .wildcard
  · next hstar =>
    obtain ⟨hstar, hdotstar⟩ := not_or.mp hstar
    have hends : EndsUnblank (lowerChars (trim cs)) := (endsUnblank_trimEnd _).lowerAfter []
    have hsmall : ∀ c ∈ lowerChars (trim cs), IsSmall c := fun c => isSmall_of_mem_lowerChars
    split
    · next rest hrest =>
      refine .dotted ?_ (fun c hc => hsmall c (hrest ▸ List.mem_cons_of_mem _ hc)) (hrest ▸ hends)
      rintro rfl
      exact hdotstar (eq_of_lowerChars_eq (by simp) hrest)
    · refine .dotted (fun hrest => ?_) hsmall (hends.cons rfl)
      exact hstar (eq_of_lowerChars_eq (by simp) hrest)

/-- **Normalizing leaves a normal form.** -/
theorem IsNormal.normalizeChars_eq {cs : List Char} (h : IsNormal cs) : normalizeChars cs = cs := by
  cases h with
  | wildcard => rfl
  | @dotted rest not_star small ends =>
    have htrim : trim ('.' :: rest) = '.' :: rest := ends.trimEnd_eq
    have hlower : lowerChars ('.' :: rest) = '.' :: rest :=
      lowerAfter_of_small (List.forall_mem_cons.mpr ⟨isSmall_dot, small⟩) []
    simp [normalizeChars, htrim, hlower, not_star]

theorem IsNormal.endsUnblank {cs : List Char} (h : IsNormal cs) : EndsUnblank cs := by
  cases h with
  | wildcard => exact (endsUnblank_concat [] _).mpr rfl
  | dotted _ _ ends => exact ends

theorem normalizeChars_eq_iff {cs : List Char} : normalizeChars cs = cs ↔ IsNormal cs :=
  ⟨fun h => h ▸ isNormal_normalizeChars cs, IsNormal.normalizeChars_eq⟩

/-- **The extensions that normalizing leaves** are the normal forms. -/
theorem normalize_eq_iff {extension : String} :
    normalize extension = extension ↔ IsNormal extension.toList := by
  rw [← normalizeChars_eq_iff, ← String.toList_inj, normalize, String.toList_ofList]

/-- **Normalizing a normal form changes nothing.** -/
@[simp] theorem normalize_normalize (extension : String) :
    normalize (normalize extension) = normalize extension := by
  rw [normalize_eq_iff, normalize, String.toList_ofList]
  exact isNormal_normalizeChars _

/-! ## 3. Extensions of paths -/

/-- What a text has from its first dot on. -/
theorem dropWhile_dot_cases (cs : List Char) :
    cs.dropWhile (· != '.') = [] ∨ ∃ rest, cs.dropWhile (· != '.') = '.' :: rest := by
  cases hdrop : cs.dropWhile (· != '.') with
  | nil => exact .inl rfl
  | cons c rest =>
    obtain rfl : c = '.' := by
      have hhead := List.head?_dropWhile_not (· != '.') cs
      simpa [hdrop] using hhead
    exact .inr ⟨rest, rfl⟩

/-- **The extension of a path** is empty, or it starts with a dot and is in lower case. -/
theorem charsOfPath_cases (path : List Char) :
    charsOfPath path = [] ∨
      ∃ rest, charsOfPath path = '.' :: rest ∧ ∀ c ∈ rest, IsSmall c := by
  have hsmall : ∀ c ∈ charsOfPath path, IsSmall c := fun c => isSmall_of_mem_lowerChars
  unfold charsOfPath at hsmall ⊢
  rcases dropWhile_dot_cases (stem (baseName path)) with hdrop | ⟨rest, hdrop⟩
  · rw [hdrop]
    exact .inl rfl
  · have hlower : lowerChars ('.' :: rest) = '.' :: lowerAfter ['.'] rest := by
      rw [lowerChars, lowerAfter_cons, isSmall_dot.lowerNext_eq]
      rfl
    rw [hdrop, hlower] at hsmall ⊢
    exact .inr ⟨_, rfl, fun c hc => hsmall c (List.mem_cons_of_mem _ hc)⟩

/-- **The extension of a path is a normal form** unless it is empty, a dot and a star, or ends in a
blank. -/
theorem isNormal_charsOfPath_iff (path : List Char) :
    IsNormal (charsOfPath path) ↔
      charsOfPath path ≠ [] ∧ charsOfPath path ≠ ['.', '*'] ∧ EndsUnblank (charsOfPath path) := by
  rcases charsOfPath_cases path with h | ⟨rest, h, small⟩
  · rw [h]
    exact ⟨fun hn => (nomatch hn), fun hn => absurd rfl hn.1⟩
  · rw [h]
    constructor
    · rintro (_ | ⟨not_star, -, ends⟩)
      exact ⟨by simp, by simpa using not_star, ends⟩
    · rintro ⟨-, not_star, ends⟩
      exact .dotted (by simpa using not_star) small ends

/-- The last segment ends like the extension. -/
theorem finalSegmentChars_concat (cs : List Char) {c : Char} (h : c ≠ '.') :
    ∃ init, finalSegmentChars (cs ++ [c]) = init ++ [c] := by
  unfold finalSegmentChars
  split
  · refine ⟨'.' :: (cs.reverse.takeWhile (· != '.')).reverse, ?_⟩
    simp [h]
  · exact ⟨cs, rfl⟩

/-- **If the extension of a path is no normal form then its last segment is none.** -/
theorem finalSegmentChars_not_normal {path : List Char} (h : ¬ IsNormal (charsOfPath path)) :
    ¬ IsNormal (finalSegmentChars (charsOfPath path)) := by
  rw [isNormal_charsOfPath_iff] at h
  by_cases hnil : charsOfPath path = []
  · rw [hnil]
    exact fun hn => nomatch hn
  by_cases hstar : charsOfPath path = ['.', '*']
  · rw [hstar]
    rintro (_ | ⟨not_star, -, -⟩)
    exact not_star rfl
  · have hends : ¬ EndsUnblank (charsOfPath path) := fun he => h ⟨hnil, hstar, he⟩
    obtain ⟨cs, c, hc⟩ := (charsOfPath path).eq_nil_or_concat'.resolve_left hnil
    rw [hc, endsUnblank_concat] at hends
    have hdot : c ≠ '.' := by
      rintro rfl
      exact hends rfl
    obtain ⟨init, hinit⟩ := finalSegmentChars_concat cs hdot
    rw [hc, hinit]
    exact fun hn => hends ((endsUnblank_concat init c).mp hn.endsUnblank)

/-- **Which paths have an extension in normal form.** -/
theorem normalize_ofPath_iff (path : String) :
    normalize (ofPath path) = ofPath path ↔
      ofPath path ≠ "" ∧ ofPath path ≠ ".*" ∧ EndsUnblank (ofPath path).toList := by
  have hnil : ofPath path = "" ↔ charsOfPath path.toList = [] := by
    rw [← String.toList_inj, ofPath, String.toList_ofList]
    rfl
  have hstar : ofPath path = ".*" ↔ charsOfPath path.toList = ['.', '*'] := by
    rw [← String.toList_inj, ofPath, String.toList_ofList]
    rfl
  rw [normalize_eq_iff, ne_eq, ne_eq, hnil, hstar, ofPath, String.toList_ofList,
    isNormal_charsOfPath_iff]

/-- If the extension of a path is no normal form then its last segment is none. -/
theorem finalSegment_not_normal {path : String} (h : normalize (ofPath path) ≠ ofPath path) :
    normalize (finalSegment (ofPath path)) ≠ finalSegment (ofPath path) := by
  rw [ne_eq, normalize_eq_iff, ofPath, String.toList_ofList] at h
  rw [ne_eq, normalize_eq_iff, finalSegment, ofPath, String.toList_ofList, String.toList_ofList]
  exact finalSegmentChars_not_normal h

end Extension

end Folio
