/-
# The forms of extensions

A table is filled with declared extensions in normal form, and looked up with the extensions that
paths carry and with the last segments of these.  This file says what each of the three looks like,
for all texts.

A normal form is the wildcard or starts with a dot, and normalizing leaves it (`IsKey`).  The
extension of a path is cut out of a lower-cased file name, so it has neither a separator nor a dot
at its end (`IsCut`), and the directory in front of the file name does not matter for it.  Its last
segment is the shortest part at its end that starts with a dot (`isLastSegment_iff`).
-/
import Folio.Proofs.Text.FileName

namespace Folio.Extension

open Text

/-! ## 1. Directories -/

/-- **A directory in front of a file name**: there is none, or it ends in a separator. -/
def IsDirectory (dir : List Char) : Prop := ∀ c ∈ dir.getLast?, isSeparator c = true

instance (dir : List Char) : Decidable (IsDirectory dir) :=
  dir.getLast?.decidableForallMem

/-- The last component of a path, as a text. -/
def fileName (path : String) : String := String.ofList (baseName path.toList)

/-- No separator is in a file name. -/
theorem not_separator_of_mem_baseName {path : List Char} {c : Char} (h : c ∈ baseName path) :
    isSeparator c = false := by
  rw [baseName, List.mem_reverse] at h
  simpa using List.mem_takeWhile_imp h

/-- **A path is a directory and a file name.** -/
theorem exists_directory (path : List Char) :
    ∃ dir, IsDirectory dir ∧ path = dir ++ baseName path := by
  refine ⟨(path.reverse.dropWhile fun c => !isSeparator c).reverse, fun c hc => ?_, ?_⟩
  · rw [List.getLast?_reverse] at hc
    have hhead := List.head?_dropWhile_not (fun c => !isSeparator c) path.reverse
    rw [hc] at hhead
    simpa using hhead
  · rw [baseName, ← List.reverse_append, List.takeWhile_append_dropWhile, List.reverse_reverse]

/-- **A directory in front of a path does not change its last component.** -/
theorem baseName_append {dir : List Char} (h : IsDirectory dir) (path : List Char) :
    baseName (dir ++ path) = baseName path := by
  rcases dir.eq_nil_or_concat' with rfl | ⟨front, c, rfl⟩
  · rfl
  · have hc : isSeparator c = true := h c (by simp)
    have hstop : (c :: front.reverse).takeWhile (fun c => !isSeparator c) = [] := by
      rw [List.takeWhile_cons, if_neg (by simp [hc])]
    have htake (l : List Char) : (l ++ c :: front.reverse).takeWhile (fun c => !isSeparator c) =
        l.takeWhile fun c => !isSeparator c := by
      induction l with
      | nil => exact hstop
      | cons d l ih => rw [List.cons_append, List.takeWhile_cons, List.takeWhile_cons, ih]
    rw [baseName, List.reverse_append, List.reverse_concat', htake, baseName]

/-- The file name of a file name is itself. -/
theorem baseName_baseName (path : List Char) : baseName (baseName path) = baseName path := by
  obtain ⟨dir, hdir, hpath⟩ := exists_directory path
  conv_rhs => rw [hpath]
  exact (baseName_append hdir _).symm

/-- **The directory does not matter for the extension of a path.** -/
theorem charsOfPath_append_baseName {dir : List Char} (h : IsDirectory dir) (path : List Char) :
    charsOfPath (dir ++ baseName path) = charsOfPath path := by
  rw [charsOfPath_eq, charsOfPath_eq, baseName_append h, baseName_baseName]

/-! ## 2. What is in an extension -/

/-- What an extension has is in the file name. -/
theorem mem_of_mem_writtenChars {name : List Char} {c : Char}
    (h : c ∈ writtenChars name) : c ∈ name := by
  have hstem : c ∈ stem name := (List.dropWhile_suffix _).mem h
  obtain ⟨m, n, hname, -⟩ := exists_dots name
  rw [hname]
  exact List.mem_append_right _ (List.mem_append_left _ hstem)

/-- **No separator is in the extension of a path.** -/
theorem not_separator_of_mem_charsOfPath {path : List Char} {c : Char}
    (h : c ∈ charsOfPath path) : isSeparator c = false := by
  rw [charsOfPath_eq] at h
  rcases settled_of_mem_lowerAfter h with ⟨hmem, -⟩ | hs
  · exact not_separator_of_mem_baseName (mem_of_mem_writtenChars hmem)
  · -- both separators stand before the small letters of ASCII
    have hbeyond := hs.beyond
    by_contra hsep
    rw [Bool.not_eq_false, isSeparator, Bool.or_eq_true, beq_iff_eq, beq_iff_eq] at hsep
    rcases hsep with rfl | rfl <;> exact absurd hbeyond (by decide)

/-- No dot stands at the end of a stem. -/
theorem getLast?_stem_ne (name : List Char) : (stem name).getLast? ≠ some '.' := by
  intro h
  rw [stem, trimEndDots, List.getLast?_reverse] at h
  have hhead := List.head?_dropWhile_not (· == '.') (name.dropWhile (· == '.')).reverse
  rw [h] at hhead
  simp at hhead

/-- **The extension of a path does not end in a dot.** -/
theorem getLast?_charsOfPath_ne (path : List Char) : (charsOfPath path).getLast? ≠ some '.' := by
  intro h
  have hwritten : (writtenChars (baseName path)).getLast? = some '.' :=
    getLast?_of_getLast?_lowerAfter h not_settled_dot
  have hne : writtenChars (baseName path) ≠ [] := by
    intro hnil
    rw [hnil] at hwritten
    cases hwritten
  refine getLast?_stem_ne (baseName path) ?_
  rw [getLast?_of_suffix (List.dropWhile_suffix _) hne]
  exact hwritten

/-! ## 3. The last segment -/

/-- **The shortest part at the end of a text that starts with a dot.** -/
structure IsLastSegment (segment extension : List Char) : Prop where
  starts : segment.head? = some '.'
  ends : segment <:+ extension
  shortest : ∀ other : List Char, other.head? = some '.' → other <:+ extension →
    segment.length ≤ other.length

/-- A text with a dot has a last one. -/
theorem exists_last_dot {cs : List Char} (h : '.' ∈ cs) :
    ∃ front, cs = front ++ finalSegmentChars cs ∧
      ∃ tail, finalSegmentChars cs = '.' :: tail ∧ '.' ∉ tail := by
  have htail : '.' ∉ (cs.reverse.takeWhile (· != '.')).reverse := by
    intro hmem
    simpa using List.mem_takeWhile_imp (List.mem_reverse.mp hmem)
  obtain ⟨front, hfront⟩ : ∃ front, cs.reverse.dropWhile (· != '.') = '.' :: front := by
    rcases dropWhile_dot_cases cs.reverse with hnil | hcons
    · have hnone := List.dropWhile_eq_nil_iff.mp hnil '.' (List.mem_reverse.mpr h)
      simp at hnone
    · exact hcons
  have hsegment : finalSegmentChars cs = '.' :: (cs.reverse.takeWhile (· != '.')).reverse :=
    if_pos h
  refine ⟨front.reverse, ?_, _, hsegment, htail⟩
  have hcs : cs.reverse = cs.reverse.takeWhile (· != '.') ++ '.' :: front := by
    rw [← hfront, List.takeWhile_append_dropWhile]
  calc cs
    _ = cs.reverse.reverse := (List.reverse_reverse cs).symm
    _ = (cs.reverse.takeWhile (· != '.') ++ '.' :: front).reverse := congrArg List.reverse hcs
    _ = front.reverse ++ finalSegmentChars cs := by
        rw [hsegment, List.reverse_append, List.reverse_cons, List.append_assoc]
        rfl

theorem isLastSegment_finalSegmentChars {cs : List Char} (h : '.' ∈ cs) :
    IsLastSegment (finalSegmentChars cs) cs := by
  obtain ⟨front, hcs, tail, hsegment, htail⟩ := exists_last_dot h
  have hends : finalSegmentChars cs <:+ cs := ⟨front, hcs.symm⟩
  refine ⟨by rw [hsegment]; rfl, hends, fun other hstarts hother => ?_⟩
  by_contra hlt
  have hshorter : other <:+ finalSegmentChars cs :=
    List.suffix_of_suffix_length_le hother hends (by omega)
  -- a shorter one would start behind the last dot
  rw [hsegment, List.suffix_cons_iff] at hshorter
  rcases hshorter with rfl | hshorter
  · rw [hsegment] at hlt
    exact hlt (Nat.le_refl _)
  · exact htail (hshorter.mem (List.mem_of_head? hstarts))

/-- **The last segment is the shortest part at the end that starts with a dot**; there is none where
there is no dot. -/
theorem isLastSegment_iff {segment cs : List Char} :
    IsLastSegment segment cs ↔ '.' ∈ cs ∧ segment = finalSegmentChars cs := by
  constructor
  · intro h
    have hdot : '.' ∈ cs := h.ends.mem (List.mem_of_head? h.starts)
    have hfinal := isLastSegment_finalSegmentChars hdot
    have hle := h.shortest _ hfinal.starts hfinal.ends
    have hge := hfinal.shortest _ h.starts h.ends
    have hsuffix := List.suffix_of_suffix_length_le h.ends hfinal.ends hle
    exact ⟨hdot, hsuffix.eq_of_length (Nat.le_antisymm hle hge)⟩
  · rintro ⟨hdot, rfl⟩
    exact isLastSegment_finalSegmentChars hdot

/-! ## 4. The forms -/

/-- **What a key of the tables looks like**: it is the wildcard, written in one way only, or it
starts with a dot; and normalizing leaves it. -/
structure IsKey (key : String) : Prop where
  starts : key = wildcard ∨ key.toList.head? = some '.'
  not_star : key ≠ ".*"
  stable : normalize key = key

/-- **What is cut out of a file name**: nothing, or a dot and something behind it, in lower case,
without a separator and without a dot at the end; and what its last segment is. -/
structure IsCut (extension : String) : Prop where
  starts : extension = "" ∨ ∃ c rest, extension.toList = '.' :: c :: rest
  no_separator : ∀ c ∈ extension.toList, isSeparator c = false
  ends : extension.toList.getLast? ≠ some '.'
  lower : Text.lower extension = extension
  segment : ∀ segment : String, IsLastSegment segment.toList extension.toList ↔
    extension ≠ "" ∧ segment = finalSegment extension
  no_segment : extension = "" → finalSegment extension = ""

/-- **A normal form is a key.** -/
theorem IsNormal.isKey {key : String} (h : IsNormal key.toList) : IsKey key := by
  refine ⟨?_, ?_, normalize_eq_iff.mpr h⟩
  · cases hkey : key.toList with
    | nil => exact absurd (hkey ▸ h) nofun
    | cons c rest =>
      rw [hkey] at h
      cases h with
      | wildcard => exact .inl (String.toList_inj.mp hkey)
      | dotted not_star small ends => exact .inr rfl
  · rintro rfl
    cases h with
    | dotted not_star small ends => exact not_star rfl

/-- **The extension of a path is cut out of its file name.** -/
theorem isCut_ofPath (path : String) : IsCut (ofPath path) := by
  have hchars : (ofPath path).toList = charsOfPath path.toList := String.toList_ofList
  have hempty : ofPath path = "" ↔ charsOfPath path.toList = [] := by
    rw [← String.toList_inj, hchars]
    rfl
  have hdot : '.' ∈ charsOfPath path.toList ↔ charsOfPath path.toList ≠ [] := by
    rcases charsOfPath_cases path.toList with h | ⟨rest, h, -⟩ <;> simp [h]
  have hends := getLast?_charsOfPath_ne path.toList
  refine ⟨?_, ?_, ?_, ?_, fun segment => ?_, fun h => by rw [h]; rfl⟩
  · rw [hempty, hchars]
    refine (charsOfPath_cases path.toList).imp id ?_
    rintro ⟨rest, h, -⟩
    cases rest with
    | nil => exact absurd (by rw [h]; rfl) hends
    | cons c rest => exact ⟨c, rest, h⟩
  · rw [hchars]
    exact fun c => not_separator_of_mem_charsOfPath
  · rwa [hchars]
  · rw [Text.lower, hchars, charsOfPath, lowerChars_lowerChars]
    rfl
  · rw [hchars, isLastSegment_iff, hdot, ne_eq, ne_eq, hempty, ← String.toList_inj, finalSegment,
      String.toList_ofList, hchars]

/-- **The forms of extensions**, for all texts:

* a declared extension is brought to the wildcard or to a text that starts with a dot, never to
  `.*`, and bringing it there twice changes nothing more;
* the extension of a path is empty, or it is a dot with at least one character behind it, without a
  separator and without a dot at the end, and lower-casing it changes nothing;
* its last segment is the shortest part at its end that starts with a dot, and nothing if it is
  empty, where there is no such part;
* a path is a directory, which may be none, and a file name without separators, and its extension is
  that of the same file name behind any other directory. -/
theorem extension_forms (declared path : String) :
    IsKey (normalize declared) ∧ IsCut (ofPath path) ∧
    (∃ dir : String, IsDirectory dir.toList ∧ path = dir ++ fileName path) ∧
    (∀ c ∈ (fileName path).toList, isSeparator c = false) ∧
    ∀ dir : String, IsDirectory dir.toList → ofPath (dir ++ fileName path) = ofPath path := by
  have hname : (fileName path).toList = baseName path.toList := String.toList_ofList
  refine ⟨IsNormal.isKey ?_, isCut_ofPath path, ?_, ?_, fun dir hdir => ?_⟩
  · rw [normalize, String.toList_ofList]
    exact isNormal_normalizeChars _
  · obtain ⟨dir, hdir, hpath⟩ := exists_directory path.toList
    refine ⟨String.ofList dir, by rwa [String.toList_ofList], ?_⟩
    rw [← String.toList_inj, String.toList_append, String.toList_ofList, hname]
    exact hpath
  · rw [hname]
    exact fun c => not_separator_of_mem_baseName
  · rw [ofPath, ofPath, String.toList_append, hname, charsOfPath_append_baseName hdir]

/-- A name with dots around its stem, a length that lower-casing changes, and a sigma at its end. -/
theorem extension_forms_mixed :
    let extension := ofPath "notes/..Plan.İX.ΟΔΟΣ.."
    extension = ".i̇x.οδος" ∧ ofPath "C:\\..Plan.İX.ΟΔΟΣ.." = extension ∧
      IsLastSegment ".οδος".toList extension.toList ∧ normalize " ΟΔΟΣ\t" = ".οδος" ∧
      IsKey (normalize " ΟΔΟΣ\t") := by
  obtain ⟨key, cut, -, -, moved⟩ := extension_forms " ΟΔΟΣ\t" "notes/..Plan.İX.ΟΔΟΣ.."
  refine ⟨by decide +kernel, moved "C:\\" (by decide +kernel), (cut.segment _).mpr ?_,
    by decide +kernel, key⟩
  decide +kernel

end Folio.Extension
