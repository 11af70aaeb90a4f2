/-
# What a file name ends in

The extension of a path and the file types of a path are told from the same file name in two ways.
The extension is cut out of the name, which loses the dots at both ends, and is put into lower case
then.  A file type is compared with the end of the name in lower case, which has to be longer.  What
can match there is what the lowered name has from the first dot after its first character on
(`suffix_endingChars_iff`).

This ending and the extension are the same unless

* the name has more dots around its stem than a single one in front of it (`..profile`, `a.b.`), or
* the extension begins with a capital sigma, which the letters before it make a final one (`a.Σ`).

`endingChars_eq_iff` says that these are the only two reasons.  The first is seen by counting dots:
lower-casing keeps them, so the ending has all that the stem has, and more if there are any around
it.  For the second the two are lower-cased from the same text with and without what stands before.

The two do not have to be the same to match the same extensions: an ending that is no normal form is
matched by none.  Then the extension is none either (`isNormal_endingChars`), so in this case they
agree again, and in all others the ending itself tells them apart (`suffixes_agree_iff`).
-/
import Folio.Proofs.Text.Extension
import Mathlib.Data.List.TakeWhile

namespace Folio

/-! ## 1. Dots in lower case -/

namespace Text

theorem not_settled_dot : ¬ IsSettled '.'.toNat := fun h => absurd h.beyond (by decide)

theorem count_dot_lowerNext (before : List Char) (c : Char) (rest : List Char) :
    (lowerNext before c rest).count '.' = [c].count '.' := by
  rcases lowerNext_cases before c rest with ⟨hs, -⟩ | hs
  · rw [hs]
  · have hc : c ≠ '.' := by
      rintro rfl
      refine not_settled_dot (hs '.' ?_)
      simp [Extension.isSmall_dot.lowerNext_eq]
    have hn : '.' ∉ lowerNext before c rest := fun h => not_settled_dot (hs '.' h)
    rw [List.count_eq_zero.mpr hn, List.count_singleton, if_neg (by simpa using hc)]

theorem dot_not_mem_lowerNext {c : Char} (h : c ≠ '.') (before rest : List Char) :
    '.' ∉ lowerNext before c rest := by
  rw [← List.count_eq_zero, count_dot_lowerNext, List.count_singleton, if_neg (by simpa using h)]

/-- **Lower-casing keeps the dots.** -/
theorem count_dot_lowerAfter (before cs : List Char) :
    (lowerAfter before cs).count '.' = cs.count '.' := by
  induction cs generalizing before with
  | nil => rfl
  | cons c rest ih =>
    rw [lowerAfter_cons, List.count_append, count_dot_lowerNext, ih, ← List.count_append]
    rfl

theorem head?_lowerChars_eq_dot_iff (cs : List Char) :
    (lowerChars cs).head? = some '.' ↔ cs.head? = some '.' := by
  cases cs with
  | nil => rfl
  | cons c rest =>
    rw [lowerChars, lowerAfter_cons, List.head?_cons]
    by_cases hc : c = '.'
    · simp [hc, Extension.isSmall_dot.lowerNext_eq]
    · obtain ⟨d, ds, hd⟩ := List.exists_cons_of_ne_nil (lowerNext_ne_nil [] c rest)
      have hn := dot_not_mem_lowerNext hc [] rest
      rw [hd, List.mem_cons, not_or] at hn
      rw [hd, List.cons_append, List.head?_cons, Option.some.injEq, Option.some.injEq]
      exact iff_of_false (Ne.symm hn.1) hc

/-- **To drop what stands before the first dot** can be done before lower-casing as well as after
it, if what is dropped is kept in mind. -/
theorem dropWhile_lowerAfter (before cs : List Char) :
    (lowerAfter before cs).dropWhile (· != '.') =
      lowerAfter ((cs.takeWhile (· != '.')).reverse ++ before) (cs.dropWhile (· != '.')) := by
  induction cs generalizing before with
  | nil => rfl
  | cons c rest ih =>
    by_cases hc : c = '.'
    · subst hc
      simp [lowerAfter_cons, Extension.isSmall_dot.lowerNext_eq]
    · have hn : ∀ d ∈ lowerNext before c rest, (d != '.') = true := by
        intro d hd
        have hdot : d ≠ '.' := fun h => dot_not_mem_lowerNext hc before rest (h ▸ hd)
        simpa using hdot
      have hb : (c != '.') = true := by simpa using hc
      rw [lowerAfter_cons, List.dropWhile_append_of_pos hn, ih, List.takeWhile_cons, if_pos hb,
        List.dropWhile_cons, if_pos hb]
      simp

/-- A dot is looked through. -/
theorem turnsSigma_concat_dot (before cs : List Char) :
    turnsSigma (before ++ ['.']) cs = turnsSigma before cs := by
  have hcased : meetsCased (before ++ ['.']) = meetsCased before := by
    by_cases h : ∃ c ∈ before, isCaseIgnorable c = false
    · exact meetsCased_append_of_any h _
    · have hall : ∀ c ∈ before, isCaseIgnorable c = true := by simpa using h
      rw [meetsCased_append_of_all hall, meetsCased_of_all hall]
      decide +kernel
  simp only [turnsSigma, hcased]

/-- A text that ends in a blank in lower case ends in the same blank as it is written. -/
theorem exists_blank_of_lowerAfter {before cs : List Char}
    (h : ¬ EndsUnblank (lowerAfter before cs)) :
    ∃ init d, cs = init ++ [d] ∧ isBlank d = true ∧ IsSmall d := by
  simp only [EndsUnblank, not_forall, Bool.not_eq_false] at h
  obtain ⟨d, hd, hb⟩ := h
  obtain ⟨init, hinit⟩ := List.getLast?_eq_some_iff.mp (blank_of_getLast?_lowerAfter hd hb)
  refine ⟨init, d, hinit, hb, ?_⟩
  rcases settled_of_mem_lowerAfter (List.mem_of_getLast? hd) with ⟨-, hs⟩ | hs
  · exact hs
  · rw [hs.char_not_blank] at hb
    cases hb

end Text

namespace Extension

open Text

/-! ## 2. Suffixes that begin with a dot -/

theorem count_dot_dropWhile (l : List Char) :
    (l.dropWhile (· != '.')).count '.' = l.count '.' := by
  induction l with
  | nil => rfl
  | cons c l ih =>
    by_cases hc : c = '.'
    · simp [hc]
    · simp [hc, ih]

theorem suffix_dropWhile_iff {e : List Char} : ∀ {l : List Char},
    '.' :: e <:+ l.dropWhile (· != '.') ↔ '.' :: e <:+ l
  | [] => by simp
  | c :: l => by
    by_cases hc : c = '.'
    · simp [hc]
    · have hne : '.' :: e ≠ c :: l := fun h => hc (List.cons.inj h).1.symm
      rw [List.dropWhile_cons, if_pos (by simpa using hc), suffix_dropWhile_iff,
        List.suffix_cons_iff, or_iff_right hne]

theorem suffix_tail_iff {e l : List Char} (he : e ≠ []) :
    e <:+ l.tail ↔ e <:+ l ∧ e.length < l.length := by
  cases l with
  | nil => simp [he]
  | cons c l =>
    rw [List.suffix_cons_iff, List.tail_cons, List.length_cons]
    constructor
    · intro h
      exact ⟨.inr h, Nat.lt_succ_of_le h.length_le⟩
    · rintro ⟨rfl | h, hlt⟩
      · exact absurd hlt (Nat.lt_irrefl _)
      · exact h

theorem getLast?_of_suffix {a b : List Char} (h : a <:+ b) (ha : a ≠ []) :
    b.getLast? = a.getLast? := by
  obtain ⟨front, rfl⟩ := h
  exact List.getLast?_append_of_ne_nil front ha

/-! ## 3. A file name and its stem -/

/-- What a file name has before the first dot of its stem. -/
def title (name : List Char) : List Char := (stem name).takeWhile (· != '.')

/-- The extension of a file name as it is written. -/
def writtenChars (name : List Char) : List Char := (stem name).dropWhile (· != '.')

theorem charsOfPath_eq (path : List Char) :
    charsOfPath path = lowerChars (writtenChars (baseName path)) := rfl

theorem dropWhile_dots_ne (name l : List Char) : name.dropWhile (· == '.') ≠ '.' :: l := by
  intro h
  have hn := List.head?_dropWhile_not (· == '.') name
  rw [h] at hn
  simp at hn

/-- No dot stands in front of a stem. -/
theorem stem_ne_dot_cons (name l : List Char) : stem name ≠ '.' :: l := by
  intro h
  have hp : stem name <+: name.dropWhile (· == '.') := by
    rw [stem, trimEndDots, ← List.reverse_suffix, List.reverse_reverse]
    exact List.dropWhile_suffix _
  obtain ⟨rest, hrest⟩ := hp
  rw [h, List.cons_append] at hrest
  exact dropWhile_dots_ne name _ hrest.symm

/-- **A file name is its stem with dots around it**; if it is all dots they are in front. -/
theorem exists_dots (name : List Char) : ∃ m n,
    name = List.replicate m '.' ++ (stem name ++ List.replicate n '.') ∧
      (stem name = [] → n = 0) := by
  have hdots (l : List Char) : l =
      List.replicate (l.takeWhile (· == '.')).length '.' ++ l.dropWhile (· == '.') := by
    have htake : l.takeWhile (· == '.') = List.replicate (l.takeWhile (· == '.')).length '.' :=
      List.eq_replicate_of_mem fun c hc => by simpa using List.mem_takeWhile_imp hc
    rw [← htake, List.takeWhile_append_dropWhile]
  -- the dots in front are those of the name, and the dots behind those of the rest, reversed
  have hbehind : name.dropWhile (· == '.') = stem name ++
      List.replicate ((name.dropWhile (· == '.')).reverse.takeWhile (· == '.')).length '.' := by
    rw [stem, trimEndDots, ← List.reverse_replicate, ← List.reverse_append, ← hdots,
      List.reverse_reverse]
  refine ⟨_, _, (hdots name).trans (congrArg _ hbehind), fun h => ?_⟩
  have hall : ∀ c ∈ name.dropWhile (· == '.'), c = '.' := by
    simpa [stem, trimEndDots, List.dropWhile_eq_nil_iff] using h
  cases hbody : name.dropWhile (· == '.') with
  | nil => rfl
  | cons c rest =>
    obtain rfl : c = '.' := hall c (by rw [hbody]; exact List.mem_cons_self)
    exact absurd hbody (dropWhile_dots_ne name rest)

/-- A file name that ends in something else than a dot ends like its stem. -/
theorem getLast?_stem {name : List Char} {d : Char} (h : name.getLast? = some d) (hd : d ≠ '.') :
    (stem name).getLast? = some d := by
  obtain ⟨m, n, hname, -⟩ := exists_dots name
  have hdots (k : Nat) : (List.replicate k '.').getLast? ≠ some d := fun hk =>
    hd (List.eq_of_mem_replicate (List.mem_of_getLast? hk))
  rw [hname, List.getLast?_append, List.getLast?_append] at h
  cases hn : (List.replicate n '.').getLast? with
  | some c =>
    rw [hn] at h
    exact absurd (hn.trans h) (hdots n)
  | none =>
    rw [hn, Option.none_or] at h
    cases hs : (stem name).getLast? with
    | some c =>
      rw [hs] at h
      exact h
    | none =>
      rw [hs, Option.none_or] at h
      exact absurd h (hdots m)

/-! ## 4. The ending -/

/-- **What a file type sees of a file name**: from the first dot after its first character on, in
lower case. -/
def endingChars (name : List Char) : List Char := (lowerChars name).tail.dropWhile (· != '.')

/-- **An extension is at the end of a longer name** exactly if the ending ends in it. -/
theorem suffix_endingChars_iff {e name : List Char} :
    '.' :: e <:+ endingChars name ↔
      '.' :: e <:+ lowerChars name ∧ ('.' :: e).length < (lowerChars name).length := by
  rw [endingChars, suffix_dropWhile_iff, suffix_tail_iff (List.cons_ne_nil _ _)]

/-- An ending is empty, or it starts with a dot and is in lower case. -/
theorem endingChars_cases (name : List Char) :
    endingChars name = [] ∨
      ∃ rest, endingChars name = '.' :: rest ∧ ∀ c ∈ rest, IsSmall c := by
  refine (dropWhile_dot_cases (lowerChars name).tail).imp id ?_
  rintro ⟨rest, hrest⟩
  refine ⟨rest, hrest, fun c hc => ?_⟩
  have hmem : c ∈ endingChars name := by
    rw [endingChars, hrest]
    exact List.mem_cons_of_mem _ hc
  have hlower : c ∈ lowerChars name := List.mem_of_mem_tail ((List.dropWhile_suffix _).mem hmem)
  exact isSmall_of_mem_lowerChars hlower

/-- **The dots around the stem are one at most**, and that one stands in front. -/
def DottedOnce (name : List Char) : Prop := name = stem name ∨ name = '.' :: stem name

/-- **An ending has the dots of the extension**, and no others only if the stem has no more than
one dot around it. -/
theorem count_dot_endingChars (name : List Char) :
    (lowerChars (writtenChars name)).count '.' ≤ (endingChars name).count '.' ∧
      ((endingChars name).count '.' ≤ (lowerChars (writtenChars name)).count '.' →
        DottedOnce name) := by
  obtain ⟨m, n, hname, hn⟩ := exists_dots name
  have hwritten : (lowerChars (writtenChars name)).count '.' = (stem name).count '.' := by
    rw [lowerChars, count_dot_lowerAfter, writtenChars, count_dot_dropWhile]
  have hall : (lowerChars name).count '.' = m + ((stem name).count '.' + n) := by
    rw [lowerChars, count_dot_lowerAfter]
    conv_lhs => rw [hname]
    simp
  have hending : (endingChars name).count '.' =
      (lowerChars name).count '.' - if name.head? = some '.' then 1 else 0 := by
    rw [endingChars, count_dot_dropWhile, List.count_tail]
    simp [head?_lowerChars_eq_dot_iff]
  rw [hending, hall, hwritten]
  cases m with
  | zero =>
    have hhead : name.head? ≠ some '.' := by
      intro h
      obtain ⟨l, hl⟩ := List.head?_eq_some_iff.mp h
      rw [hname, List.replicate_zero, List.nil_append] at hl
      cases hs : stem name with
      | nil => simp [hs, hn hs] at hl
      | cons c rest =>
        rw [hs, List.cons_append] at hl
        exact stem_ne_dot_cons name rest ((List.cons.inj hl).1 ▸ hs)
    rw [if_neg hhead]
    refine ⟨by omega, fun hle => ?_⟩
    obtain rfl : n = 0 := by omega
    exact .inl (by simpa using hname)
  | succ m =>
    have hhead : name.head? = some '.' := by
      rw [hname]
      rfl
    rw [if_pos hhead]
    refine ⟨by omega, fun hle => ?_⟩
    obtain ⟨rfl, rfl⟩ : m = 0 ∧ n = 0 := by omega
    exact .inr (by simpa using hname)

/-- The ending of such a name is its extension in lower case, with the title before it. -/
theorem DottedOnce.endingChars_eq {name : List Char} (h : DottedOnce name) :
    ∃ before, endingChars name = lowerAfter before (writtenChars name) ∧
      turnsSigma before (writtenChars name) =
        turnsSigma (title name).reverse (writtenChars name) := by
  rcases h with h | h
  · refine ⟨(title name).reverse, ?_, rfl⟩
    have hhead : (lowerChars (stem name)).head? ≠ some '.' := by
      rw [ne_eq, head?_lowerChars_eq_dot_iff, List.head?_eq_some_iff]
      rintro ⟨l, hl⟩
      exact stem_ne_dot_cons name l hl
    have htail {l : List Char} (hl : l.head? ≠ some '.') :
        l.tail.dropWhile (· != '.') = l.dropWhile (· != '.') := by
      cases l with
      | nil => rfl
      | cons c l =>
        rw [List.head?_cons, ne_eq, Option.some.injEq] at hl
        rw [List.tail_cons, List.dropWhile_cons, if_pos (by simpa using hl)]
    have hending : endingChars name = (lowerChars (stem name)).tail.dropWhile (· != '.') := by
      rw [endingChars, ← h]
    rw [hending, htail hhead, lowerChars, dropWhile_lowerAfter, List.append_nil]
    rfl
  · refine ⟨(title name).reverse ++ ['.'], ?_, turnsSigma_concat_dot _ _⟩
    have hlower : lowerChars name = '.' :: lowerAfter ['.'] (stem name) := by
      conv_lhs => rw [h]
      rw [lowerChars, lowerAfter_cons, isSmall_dot.lowerNext_eq]
      rfl
    rw [endingChars, hlower, List.tail_cons, dropWhile_lowerAfter]
    rfl

theorem DottedOnce.length_endingChars {name : List Char} (h : DottedOnce name) :
    (endingChars name).length = (lowerChars (writtenChars name)).length := by
  obtain ⟨before, hbefore, -⟩ := h.endingChars_eq
  rw [hbefore]
  exact length_lowerAfter before [] _

/-! ## 5. Where the ending is the extension -/

/-- **A file name that is read alike** from its end and by cutting out its extension: there is no
more than one dot around its stem, in front of it, and its title does not make a final sigma of the
first one in its extension. -/
structure ReadsAlike (name : List Char) : Prop where
  dotted : DottedOnce name
  sigma : turnsSigma (title name).reverse (writtenChars name) = false

/-- **The ending is the extension** exactly for the file names that are read alike. -/
theorem endingChars_eq_iff (name : List Char) :
    endingChars name = lowerChars (writtenChars name) ↔ ReadsAlike name := by
  constructor
  · intro h
    have hdots := (count_dot_endingChars name).2 (h ▸ Nat.le_refl _)
    obtain ⟨before, hbefore, hsigma⟩ := hdots.endingChars_eq
    rw [hbefore, lowerAfter_eq_lowerChars_iff, hsigma] at h
    exact ⟨hdots, h⟩
  · rintro ⟨hdots, hsigma⟩
    obtain ⟨before, hbefore, hsame⟩ := hdots.endingChars_eq
    rw [hbefore, lowerAfter_eq_lowerChars_iff, hsame, hsigma]

/-- A text in lower case that starts with a dot and ends in a normal form is one itself. -/
theorem IsNormal.of_suffix {e rest : List Char} (he : IsNormal e) (hw : e ≠ ['*'])
    (hs : e <:+ '.' :: rest) (small : ∀ c ∈ rest, IsSmall c) : IsNormal ('.' :: rest) := by
  cases he with
  | wildcard => exact absurd rfl hw
  | @dotted tail not_star _ ends =>
    refine .dotted ?_ small ?_
    · rintro rfl
      rcases List.suffix_cons_iff.mp hs with heq | hs
      · exact not_star (List.cons.inj heq).2
      · rcases List.suffix_cons_iff.mp hs with heq | hs
        · exact absurd (List.cons.inj heq).1 (by decide)
        · exact absurd (List.suffix_nil.mp hs) (List.cons_ne_nil _ _)
    · rw [EndsUnblank, getLast?_of_suffix hs (List.cons_ne_nil _ _)]
      exact ends

theorem charsOfPath_star {path before : List Char}
    (h : lowerAfter before (writtenChars (baseName path)) = ['.', '*']) :
    charsOfPath path = ['.', '*'] := by
  have hwritten : writtenChars (baseName path) = ['.', '*'] := by
    rw [← h]
    exact (eq_of_lowerAfter_lt (by simp [h])).symm
  rw [charsOfPath_eq, hwritten]
  decide +kernel

/-- **If the extension of a path is a normal form then the ending of its file name is one.** -/
theorem isNormal_endingChars {path : List Char} (h : IsNormal (charsOfPath path)) :
    IsNormal (endingChars (baseName path)) := by
  obtain ⟨hne, hstar, hends⟩ := (isNormal_charsOfPath_iff path).mp h
  obtain ⟨tail, htail, -⟩ := (charsOfPath_cases path).resolve_left hne
  have hpos : 0 < (charsOfPath path).count '.' := by
    rw [htail]
    simp
  obtain ⟨hle, hdots⟩ := count_dot_endingChars (baseName path)
  rw [← charsOfPath_eq] at hle hdots
  rcases endingChars_cases (baseName path) with hnil | ⟨rest, hrest, small⟩
  · rw [hnil] at hle
    exact absurd hpos (Nat.not_lt.mpr hle)
  have hsuffix : endingChars (baseName path) <:+ lowerChars (baseName path) :=
    (List.dropWhile_suffix _).trans (List.tail_suffix _)
  rw [hrest] at hsuffix ⊢
  refine .dotted ?_ small ?_
  · rintro rfl
    have hone : (endingChars (baseName path)).count '.' ≤ (charsOfPath path).count '.' := by
      rw [hrest]
      exact hpos
    obtain ⟨before, hbefore, -⟩ := (hdots hone).endingChars_eq
    exact hstar (charsOfPath_star (hbefore.symm.trans hrest))
  · -- a blank at the end of the name would be at the end of the extension, too
    rw [EndsUnblank, ← getLast?_of_suffix hsuffix (List.cons_ne_nil _ _)]
    by_contra hblank
    obtain ⟨init, d, hname, hb, hsmall⟩ := exists_blank_of_lowerAfter hblank
    have hd : d ≠ '.' := by
      rintro rfl
      cases hb
    have hsub : writtenChars (baseName path) <:+ stem (baseName path) := List.dropWhile_suffix _
    have hwritten : writtenChars (baseName path) ≠ [] := by
      intro hn
      rw [charsOfPath_eq, hn] at hne
      exact hne rfl
    have hlast : (writtenChars (baseName path)).getLast? = some d := by
      rw [← getLast?_of_suffix hsub hwritten]
      exact getLast?_stem (by rw [hname]; simp) hd
    obtain ⟨front, hfront⟩ := List.getLast?_eq_some_iff.mp hlast
    have hext : (charsOfPath path).getLast? = some d := by
      rw [charsOfPath_eq, hfront]
      exact getLast?_lowerAfter_of_small hsmall [] front
    rw [hends d hext] at hb
    cases hb

/-- **Where the ending and the extension end in the same normal forms**: in every path whose file
name is read alike or has an ending that is no normal form, and in no other. -/
theorem suffixes_agree_iff (path : List Char) :
    (∀ e, IsNormal e → e ≠ ['*'] →
      (e <:+ endingChars (baseName path) ↔ e <:+ charsOfPath path)) ↔
      ReadsAlike (baseName path) ∨ ¬ IsNormal (endingChars (baseName path)) := by
  constructor
  · intro h
    by_cases hn : IsNormal (endingChars (baseName path))
    · have hw : endingChars (baseName path) ≠ ['*'] := by
        rcases endingChars_cases (baseName path) with hnil | ⟨rest, hrest, -⟩
        · simp [hnil]
        · simp [hrest]
      -- the ending itself is a suffix of the extension only if it is the extension
      have hs := (h _ hn hw).mp List.suffix_rfl
      have hdots := (count_dot_endingChars (baseName path)).2 (hs.sublist.count_le _)
      exact .inl ((endingChars_eq_iff _).mp (hs.eq_of_length hdots.length_endingChars))
    · exact .inr hn
  · rintro (h | hn) e he hw
    · rw [(endingChars_eq_iff _).mpr h, charsOfPath_eq]
    · have normal {l : List Char} (hl : l = [] ∨ ∃ rest, l = '.' :: rest ∧ ∀ c ∈ rest, IsSmall c)
          (hs : e <:+ l) : IsNormal l := by
        rcases hl with rfl | ⟨rest, rfl, small⟩
        · rw [List.suffix_nil.mp hs] at he
          cases he
        · exact he.of_suffix hw hs small
      constructor
      · intro hs
        exact absurd (normal (endingChars_cases _) hs) hn
      · intro hs
        exact absurd (isNormal_endingChars (normal (charsOfPath_cases path) hs)) hn

end Extension

end Folio
