/-
# File extensions

Two spellings of an extension meet in this library: the one that a factory declares (`TXT`,
`.txt`, ` .Txt `) and the one that a path carries (`dir/Notes.TXT`).  Both are brought to one
normal form, lower case with a leading dot, so that tables keyed by it can be looked up from
either side.

* `normalize`: the normal form of a declared extension; `*` and `.*` are the wildcard.
* `ofPath`: the full extension of a path, possibly of several segments (`.table.json`).
* `finalSegment`: its last segment (`.json`).
-/
import Folio.Text.Blank
import Folio.Text.Lower

namespace Folio.Extension

/-- The key of factories that serve every extension. -/
def wildcard : String := "*"

/-! ## 1. Declared extensions -/

/-- **The normal form of a declared extension**, in characters: trimmed, in lower case, with a
dot in front. -/
def normalizeChars (cs : List Char) : List Char :=
  let trimmed := Text.trim cs
  if trimmed = ['*'] ∨ trimmed = ['.', '*'] then ['*']
  else
    match Text.lowerChars trimmed with
    | '.' :: rest => '.' :: rest
    | lowered => '.' :: lowered

/-- **The normal form of a declared extension.** -/
def normalize (extension : String) : String :=
  String.ofList (normalizeChars extension.toList)

/-! ## 2. Extensions of paths -/

/-- Directories are separated by either slash. -/
def isSeparator (c : Char) : Bool := c == '/' || c == '\\'

/-- The last component of a path. -/
def baseName (path : List Char) : List Char :=
  (path.reverse.takeWhile fun c => !isSeparator c).reverse

/-- The characters without the dots at their end. -/
def trimEndDots (cs : List Char) : List Char :=
  (cs.reverse.dropWhile (· == '.')).reverse

/-- A file name without the dots at either end: those in front mark a hidden file, those behind
end no extension. -/
def stem (name : List Char) : List Char :=
  trimEndDots (name.dropWhile (· == '.'))

/-- **The extension of a path**, in characters: from the first dot of the stem on, in lower case;
empty if the stem has no dot. -/
def charsOfPath (path : List Char) : List Char :=
  Text.lowerChars ((stem (baseName path)).dropWhile (· != '.'))

/-- **The extension of a path**: `dir/x.table.json` has `.table.json`, `.bashrc` has none. -/
def ofPath (path : String) : String :=
  String.ofList (charsOfPath path.toList)

/-- The last segment of a normal form, in characters: from the last dot on, all of it if it has
no dot. -/
def finalSegmentChars (cs : List Char) : List Char :=
  if '.' ∈ cs then '.' :: (cs.reverse.takeWhile (· != '.')).reverse else cs

/-- **The last segment of an extension**: `.table.json` has `.json`. -/
def finalSegment (extension : String) : String :=
  String.ofList (finalSegmentChars extension.toList)

end Folio.Extension
