/-
# The file types of a path

A file type is one of those of a path if the file name, in lower case, ends in one of its extensions
and is longer than that.  For extensions in normal form this is to say that the ending of the name
does (`matchesExtension_iff`), so what decides is the ending, and not the extension by which widget
factories are found.

Whether the two come to the same is told by the path alone.  They do if the file name is read alike
or if its ending is no normal form (`suffixes_agree_iff`); and for every other path there is a
registry with a single file type in which they do not, the type that declares the ending.
-/
import Folio.Proofs.Registry.Handles
import Folio.Proofs.Text.FileName

namespace Folio

/-! ## 1. The extensions of a file type -/

namespace FileType

/-- **A file type as it is made** from extensions in any spelling. -/
def IsCreated (t : FileType) : Prop :=
  ∃ name declared contentType format mimeTypes,
    t = create name declared contentType format mimeTypes

theorem IsCreated.isNormal {t : FileType} (h : t.IsCreated) {e : String} (he : e ∈ t.extensions) :
    Extension.IsNormal e.toList := by
  obtain ⟨name, declared, contentType, format, mimeTypes, rfl⟩ := h
  obtain ⟨d, -, rfl⟩ := List.mem_map.mp he
  exact Extension.normalize_eq_iff.mp (Extension.normalize_normalize d)

/-- **What a file name ends in** is what its ending ends in. -/
theorem matchesExtension_iff {e : String} (h : Extension.IsNormal e.toList)
    (hw : e ≠ Extension.wildcard) (name : List Char) :
    matchesExtension (Text.lowerChars name) e = true ↔ e.toList <:+ Extension.endingChars name := by
  have hw : e.toList ≠ ['*'] := fun he => hw (String.toList_inj.mp he)
  cases hl : e.toList with
  | nil =>
    rw [hl] at h
    cases h
  | cons c rest =>
    obtain rfl : c = '.' := by
      rw [hl] at h hw
      cases h with
      | wildcard => exact absurd rfl hw
      | dotted => rfl
    rw [Extension.suffix_endingChars_iff]
    simp [matchesExtension, hl]

theorem matchSize?_isSome_iff {t : FileType} {name : List Char} :
    (t.matchSize? name).isSome = true ↔ ∃ e ∈ t.extensions, matchesExtension name e = true := by
  rw [matchSize?, Option.isSome_iff_ne_none, ne_eq, List.max?_eq_none_iff, List.map_eq_nil_iff,
    List.filter_eq_nil_iff]
  push Not
  rfl

end FileType

/-- **The file types of a path**, in any order. -/
theorem Registry.mem_fileTypesForPath {r : Registry} {path : String} {t : FileType} :
    t ∈ r.fileTypesForPath path ↔ t ∈ r.tables.fileTypes ∧
      ∃ e ∈ t.extensions,
        FileType.matchesExtension (Text.lowerChars (Extension.baseName path.toList)) e = true := by
  rw [← FileType.matchSize?_isSome_iff, Option.isSome_iff_exists]
  simp only [fileTypesForPath, List.mem_map, List.mem_mergeSort, List.mem_filterMap,
    Option.map_eq_some_iff]
  constructor
  · rintro ⟨-, ⟨t, ht, n, hn, rfl⟩, rfl⟩
    exact ⟨ht, n, hn⟩
  · rintro ⟨ht, n, hn⟩
    exact ⟨(n, t), ⟨t, ht, n, hn, rfl⟩, rfl⟩

/-! ## 2. Endings and extensions -/

namespace Host

/-- **The file types of a path are told by a text**: in every registry that commands lead to they
are, of the types that declare no wildcard, those that declare an extension in which it ends. -/
def FileTypesToldBy (path : String) (text : List Char) : Prop :=
  ∀ commands t, t ∈ (Catalog.after commands).registry.tables.fileTypes → t.IsCreated →
    Extension.wildcard ∉ t.extensions →
    (t ∈ (Catalog.after commands).registry.fileTypesForPath path ↔
      ∃ e ∈ t.extensions, e.toList <:+ text)

/-- They are told by the ending of the file name. -/
theorem fileTypesToldBy_ending (path : String) :
    FileTypesToldBy path (Extension.endingChars (Extension.baseName path.toList)) := by
  intro commands t ht hc hw
  have hne {e : String} (he : e ∈ t.extensions) : e ≠ Extension.wildcard := fun h => hw (h ▸ he)
  rw [Registry.mem_fileTypesForPath, and_iff_right ht]
  refine exists_congr fun e => and_congr_right fun he => ?_
  exact FileType.matchesExtension_iff (hc.isNormal he) (hne he) _

/-- A file type with a single extension. -/
def singleType (name extension : String) : FileType :=
  .create name [extension] "file" .text []

theorem fileTypes_singleType (extension : String) :
    (Catalog.after [.addFileType (singleType "t" extension)]).registry.tables.fileTypes =
      [singleType "t" extension] := by
  have hkey : Text.lower "t" = "t" := by decide +kernel
  simp [Catalog.after, Catalog.run, Catalog.keep, Registry.addFileType, singleType, FileType.create,
    hkey, Registry.accept, Registry.empty, RegistryTables.findFileType?]

/-- **Texts that tell the same file types** end in the same normal forms. -/
theorem suffix_iff_of_toldBy {path : String} {text other : List Char}
    (h : FileTypesToldBy path text) (h' : FileTypesToldBy path other) {e : List Char}
    (he : Extension.IsNormal e) (hw : e ≠ ['*']) : e <:+ text ↔ e <:+ other := by
  have hext : (singleType "t" (String.ofList e)).extensions = [String.ofList e] := by
    have hn : Extension.normalize (String.ofList e) = String.ofList e := by
      rwa [Extension.normalize_eq_iff, String.toList_ofList]
    simp [singleType, FileType.create, hn]
  have hmem := List.mem_singleton_self (singleType "t" (String.ofList e))
  rw [← fileTypes_singleType] at hmem
  have hstar : Extension.wildcard ∉ (singleType "t" (String.ofList e)).extensions := by
    rw [hext, List.mem_singleton, ← String.toList_inj, String.toList_ofList]
    exact Ne.symm hw
  have hc : (singleType "t" (String.ofList e)).IsCreated := ⟨_, _, _, _, _, rfl⟩
  have hboth := (h _ _ hmem hc hstar).symm.trans (h' _ _ hmem hc hstar)
  simpa [hext] using hboth

/-- **What the file types of a path are told by.**  In every registry the file types of a path are
those that declare an extension in which the ending of the file name ends: what it has, in lower
case, from the first dot after its first character on.  The extension of the path tells the same
file types in every registry exactly if

* the file name is read alike, that is it has no more than one dot around its stem, in front of it,
  and no letter before its extension makes a final sigma of the first one in it; or
* its ending is no normal form, and then neither tells any. -/
theorem fileTypes_read_ending (path : String) :
    let name := Extension.baseName path.toList
    let ending := Extension.endingChars name
    FileTypesToldBy path ending ∧
      (FileTypesToldBy path (Extension.ofPath path).toList ↔
        Extension.ReadsAlike name ∨ ¬ Extension.IsNormal ending) := by
  intro name ending
  have hending := fileTypesToldBy_ending path
  refine ⟨hending, ?_⟩
  rw [← Extension.suffixes_agree_iff, Extension.ofPath, String.toList_ofList]
  constructor
  · intro h e he hw
    exact suffix_iff_of_toldBy hending h he hw
  · intro h commands t ht hc hw
    rw [hending commands t ht hc hw]
    refine exists_congr fun e => and_congr_right fun he => ?_
    refine h _ (hc.isNormal he) fun hs => hw ?_
    have heq : e = Extension.wildcard := String.toList_inj.mp hs
    exact heq ▸ he

/-- Types for three extensions. -/
def threeTypes : List RegistryCommand :=
  [.addFileType (singleType "b" "B"), .addFileType (singleType "bashrc" "bashrc"),
    .addFileType (singleType "sigma" ".Σ")]

/-- The name `.Tar.B` is read alike; the name `.b` has an ending that is empty, and no extension. -/
theorem fileTypes_read_ending_tar :
    FileTypesToldBy "x/.Tar.B" ".b".toList ∧ FileTypesToldBy ".b" [] ∧
      singleType "b" "B" ∈ (Catalog.after threeTypes).registry.fileTypesForPath "x/.Tar.B" := by
  have htar := (fileTypes_read_ending "x/.Tar.B").2.mpr
    (.inl ⟨.inr (by decide +kernel), by decide +kernel⟩)
  have hb := (fileTypes_read_ending ".b").2.mpr (.inl ⟨.inr (by decide +kernel), by decide +kernel⟩)
  have hext : Extension.ofPath "x/.Tar.B" = ".b" := by decide +kernel
  have hnone : Extension.ofPath ".b" = "" := by decide +kernel
  rw [hext] at htar
  rw [hnone] at hb
  refine ⟨htar, hb, (htar threeTypes _ (by decide +kernel) ⟨_, _, _, _, _, rfl⟩ ?_).mpr ?_⟩
  · decide +kernel
  · exact ⟨".b", by decide +kernel, List.suffix_rfl⟩

/-- **Where the extension tells other file types**: dots behind the extension, several dots in front
of a hidden name, and a sigma that is a final one in the file name. -/
theorem extension_tells_other_fileTypes :
    let r := (Catalog.after threeTypes).registry
    let byPath := fun path => (r.fileTypesForPath path).map (·.name)
    let byExtension := fun path => (r.tables.fileTypes.filter fun t =>
      t.extensions.any fun e => e.toList.isSuffixOf (Extension.ofPath path).toList).map (·.name)
    (byPath "a.b." = [] ∧ byExtension "a.b." = ["b"]) ∧
    (byPath "..bashrc" = ["bashrc"] ∧ byExtension "..bashrc" = []) ∧
    (byPath "a.Σ" = [] ∧ byExtension "a.Σ" = ["sigma"]) ∧
    ∀ path ∈ ["a.b.", "..bashrc", "a.Σ"],
      ¬ FileTypesToldBy path (Extension.ofPath path).toList := by
  refine ⟨by decide +kernel, by decide +kernel, by decide +kernel, ?_⟩
  have hcreated (name extension : String) : (singleType name extension).IsCreated :=
    ⟨_, _, _, _, _, rfl⟩
  simp only [List.forall_mem_cons, List.not_mem_nil, false_implies, implies_true, and_true]
  refine ⟨fun h => ?_, fun h => ?_, fun h => ?_⟩
  · have := h threeTypes (singleType "b" "B") (by decide +kernel) (hcreated _ _) (by decide +kernel)
    revert this
    decide +kernel
  · have := h threeTypes (singleType "bashrc" "bashrc") (by decide +kernel) (hcreated _ _)
      (by decide +kernel)
    revert this
    decide +kernel
  · have := h threeTypes (singleType "sigma" ".Σ") (by decide +kernel) (hcreated _ _)
      (by decide +kernel)
    revert this
    decide +kernel

end Host

end Folio
