/-
# Lower case is stable

A text in lower case is not changed by lower-casing it again (`lowerChars_lowerChars`).  With a
mapping by table this is a fact about the table: no image of an entry is itself an entry.  It is
checked over all images at once, the two sets of code points written as the bits of a number each
(`images_uncovered`), and with it the rest of what is needed of the images: they are no blanks and
lie beyond the capital letters of ASCII (`images_beyond`).  So what the mapping changes becomes a
settled character, and what it does not change stays as it is (`settled_of_mem_lowerAfter`).

The image of the capital sigma is chosen by its neighbours.  Nothing of this depends on that: both
of its images are settled, and no image is a capital sigma.  It is the only reason why a piece of a
text can become something else in lower case than it becomes within the text, and
`lowerAfter_eq_lowerChars_iff` says when it does.
-/
import Folio.Text.Blank
import Folio.Text.Lower
import Mathlib.Data.List.Basic
import Mathlib.Data.List.TakeWhile
import Mathlib.Data.Nat.Bitwise

namespace Folio.Text

/-! ## 1. The images of the table -/

/-- The code points at the places of a run, the first one put at `start`. -/
def CaseRun.codesFrom (r : CaseRun) (start : Nat) : List Nat :=
  ((List.range (r.last + 1 - r.first)).filter (· % r.step == 0)).map (start + ·)

theorem add_mem_codesFrom {r : CaseRun} {code : Nat} (h : r.covers code = true) (start : Nat) :
    start + (code - r.first) ∈ r.codesFrom start := by
  simp only [CaseRun.covers, Bool.and_eq_true, decide_eq_true_eq, beq_iff_eq] at h
  obtain ⟨⟨hf, hl⟩, hs⟩ := h
  refine List.mem_map_of_mem (List.mem_filter.mpr ⟨List.mem_range.mpr ?_, by simpa using hs⟩)
  omega

theorem mem_codesFrom_first {r : CaseRun} {code : Nat} (h : r.covers code = true) :
    code ∈ r.codesFrom r.first := by
  have hle : r.first ≤ code := by
    simp only [CaseRun.covers, Bool.and_eq_true, decide_eq_true_eq] at h
    exact h.1.1
  simpa [Nat.add_sub_cancel' hle] using add_mem_codesFrom h r.first

/-- Code points as the bits of a number. -/
def asBits (codes : List Nat) : Nat := codes.foldr (fun code bits => 1 <<< code ||| bits) 0

theorem testBit_asBits (codes : List Nat) (code : Nat) :
    (asBits codes).testBit code = decide (code ∈ codes) := by
  induction codes with
  | nil => simp [asBits]
  | cons c codes ih =>
    have hc : (1 <<< c).testBit code = decide (c = code) := by
      rw [Nat.one_shiftLeft, Nat.testBit_two_pow]
    have hcons : asBits (c :: codes) = 1 <<< c ||| asBits codes := rfl
    rw [hcons, Nat.testBit_or, hc, ih]
    simp [eq_comm]

/-- The code points that all runs have from some place each, as the bits of a number. -/
def tableBits (start : CaseRun → Nat) : Nat :=
  lowerRuns.foldr (fun r bits => asBits (r.codesFrom (start r)) ||| bits) 0

theorem testBit_tableBits {start : CaseRun → Nat} {r : CaseRun} (hr : r ∈ lowerRuns) {code : Nat}
    (h : code ∈ r.codesFrom (start r)) : (tableBits start).testBit code = true := by
  unfold tableBits
  generalize lowerRuns = runs at hr ⊢
  induction runs with
  | nil => cases hr
  | cons r' runs ih =>
    rw [List.foldr_cons, Nat.testBit_or, Bool.or_eq_true]
    rcases List.mem_cons.mp hr with rfl | hr
    · exact .inl (by simpa [testBit_asBits] using h)
    · exact .inr (ih hr)

/-- **No image is covered by a run.** -/
theorem images_uncovered : tableBits CaseRun.image &&& tableBits CaseRun.first = 0 := by
  decide +kernel

/-- **The images are characters beyond the capital letters of ASCII**, none of them a blank. -/
theorem images_beyond : ∀ r ∈ lowerRuns, ∀ code ∈ r.codesFrom r.image,
    code.isValidChar ∧ 97 ≤ code ∧ code ≠ 0x130 ∧ isBlank (Char.ofNat code) = false := by
  decide +kernel

/-- **A settled code point**: what the images of the table are. -/
structure IsSettled (code : Nat) : Prop where
  valid : code.isValidChar
  beyond : 97 ≤ code
  not_dotted : code ≠ 0x130
  not_blank : isBlank (Char.ofNat code) = false
  uncovered : ∀ r ∈ lowerRuns, r.covers code = false

theorem settled_of_image {r : CaseRun} (hr : r ∈ lowerRuns) {code : Nat}
    (h : code ∈ r.codesFrom r.image) : IsSettled code := by
  obtain ⟨hvalid, hbeyond, hdotted, hblank⟩ := images_beyond r hr code h
  refine ⟨hvalid, hbeyond, hdotted, hblank, fun r' hr' => Bool.eq_false_iff.mpr fun hc => ?_⟩
  have hboth : (tableBits CaseRun.image &&& tableBits CaseRun.first).testBit code = true := by
    rw [Nat.testBit_and, testBit_tableBits hr h, testBit_tableBits hr' (mem_codesFrom_first hc)]
    rfl
  rw [images_uncovered, Nat.zero_testBit] at hboth
  cases hboth

/-- **What the table does to a code point**: it leaves it, or it makes it a settled one. -/
theorem lowerCode_cases (code : Nat) :
    lowerCode code = code ∨ IsSettled (lowerCode code) := by
  unfold lowerCode
  split
  · next r hr =>
    have hcovers : r.covers code = true := by simpa using List.find?_some hr
    exact .inr (settled_of_image (List.mem_of_find?_eq_some hr) (add_mem_codesFrom hcovers _))
  · exact .inl rfl

/-! ## 2. Settled characters -/

/-- **A small character**: lower-casing leaves it wherever it stands. -/
def IsSmall (c : Char) : Prop := c ≠ capitalSigma ∧ lowerChar c = [c]

theorem IsSettled.lowerCode {code : Nat} (h : IsSettled code) : lowerCode code = code := by
  have hnone : lowerRuns.find? (·.covers code) = none :=
    List.find?_eq_none.mpr fun r hr => by simp [h.uncovered r hr]
  simp [Text.lowerCode, hnone]

theorem IsSettled.toNat_ofNat {code : Nat} (h : IsSettled code) :
    (Char.ofNat code).toNat = code := by
  rw [Char.ofNat, dif_pos h.valid]
  rfl

theorem IsSettled.isSmall {c : Char} (h : IsSettled c.toNat) : IsSmall c := by
  refine ⟨?_, by rw [lowerChar, if_neg h.not_dotted, h.lowerCode, Char.ofNat_toNat]⟩
  -- a run covers the capital sigma
  rintro rfl
  exact absurd (h.uncovered ⟨931, 939, 1, 963⟩ (by decide +kernel)) (by decide +kernel)

theorem IsSettled.char_not_blank {c : Char} (h : IsSettled c.toNat) : isBlank c = false := by
  simpa using h.not_blank

/-- The characters that the table does not give: those of U+0130, and the two small sigmas. -/
theorem settled_of_mem {c : Char}
    (h : c ∈ ['i', Char.ofNat 0x307, Char.ofNat 0x3C2, Char.ofNat 0x3C3]) : IsSettled c.toNat := by
  simp only [List.mem_cons, List.not_mem_nil, or_false] at h
  rcases h with rfl | rfl | rfl | rfl <;> constructor <;> decide +kernel

/-- **What lower-casing makes of a character**: the character itself, or settled ones. -/
theorem lowerChar_cases (c : Char) :
    lowerChar c = [c] ∨ ∀ d ∈ lowerChar c, IsSettled d.toNat := by
  unfold lowerChar
  split
  · refine .inr fun d hd => settled_of_mem ?_
    simp only [List.mem_cons, List.not_mem_nil, or_false] at hd ⊢
    exact hd.imp id .inl
  · rcases lowerCode_cases c.toNat with h | h
    · exact .inl (by rw [h, Char.ofNat_toNat])
    · refine .inr fun d hd => ?_
      rw [List.mem_singleton.mp hd, h.toNat_ofNat]
      exact h

theorem lowerChar_ne_nil (c : Char) : lowerChar c ≠ [] := by
  unfold lowerChar
  split <;> simp

/-- Both images of the capital sigma are settled. -/
theorem settled_lowerSigma (before after : List Char) :
    IsSettled (lowerSigma before after).toNat := by
  unfold lowerSigma
  split <;> exact settled_of_mem (by simp)

/-! ## 3. A whole text -/

/-- The characters that lower-casing makes of the next one. -/
def lowerNext (before : List Char) (c : Char) (rest : List Char) : List Char :=
  if c = capitalSigma then [lowerSigma before rest] else lowerChar c

@[simp] theorem lowerAfter_nil (before : List Char) : lowerAfter before [] = [] := rfl

theorem lowerAfter_cons (before : List Char) (c : Char) (rest : List Char) :
    lowerAfter before (c :: rest) = lowerNext before c rest ++ lowerAfter (c :: before) rest := rfl

theorem IsSmall.lowerNext_eq {c : Char} (h : IsSmall c) (before rest : List Char) :
    lowerNext before c rest = [c] := by
  rw [lowerNext, if_neg h.1, h.2]

/-- **The next character stays or becomes settled ones.** -/
theorem lowerNext_cases (before : List Char) (c : Char) (rest : List Char) :
    lowerNext before c rest = [c] ∧ IsSmall c ∨
      ∀ d ∈ lowerNext before c rest, IsSettled d.toNat := by
  unfold lowerNext
  split
  · exact .inr fun d hd => by
      rw [List.mem_singleton.mp hd]
      exact settled_lowerSigma before rest
  · next hc => exact (lowerChar_cases c).imp (fun h => ⟨h, hc, h⟩) id

theorem lowerNext_ne_nil (before : List Char) (c : Char) (rest : List Char) :
    lowerNext before c rest ≠ [] := by
  unfold lowerNext
  split
  · simp
  · exact lowerChar_ne_nil c

/-- **Each character of a lowered text** was in the text already, or it is settled. -/
theorem settled_of_mem_lowerAfter {d : Char} {cs before : List Char}
    (h : d ∈ lowerAfter before cs) : d ∈ cs ∧ IsSmall d ∨ IsSettled d.toNat := by
  induction cs generalizing before with
  | nil => cases h
  | cons c rest ih =>
    rw [lowerAfter_cons, List.mem_append] at h
    rcases h with h | h
    · rcases lowerNext_cases before c rest with ⟨hs, hc⟩ | hs
      · rw [hs, List.mem_singleton] at h
        exact .inl ⟨h ▸ List.mem_cons_self, h ▸ hc⟩
      · exact .inr (hs d h)
    · exact (ih h).imp (fun hd => ⟨List.mem_cons_of_mem _ hd.1, hd.2⟩) id

theorem isSmall_of_mem_lowerChars {d : Char} {cs : List Char} (h : d ∈ lowerChars cs) :
    IsSmall d :=
  (settled_of_mem_lowerAfter h).elim (·.2) IsSettled.isSmall

/-- A text of small characters stays. -/
theorem lowerAfter_of_small {cs : List Char} (h : ∀ c ∈ cs, IsSmall c) (before : List Char) :
    lowerAfter before cs = cs := by
  induction cs generalizing before with
  | nil => rfl
  | cons c rest ih =>
    rw [lowerAfter_cons, (h c List.mem_cons_self).lowerNext_eq,
      ih (fun d hd => h d (List.mem_cons_of_mem _ hd))]
    rfl

/-- **A text in lower case is not changed by lower-casing it again.** -/
@[simp] theorem lowerChars_lowerChars (cs : List Char) :
    lowerChars (lowerChars cs) = lowerChars cs :=
  lowerAfter_of_small (fun _ hc => isSmall_of_mem_lowerChars hc) []

/-- A lowered text with characters before the small letters of ASCII only is the text itself. -/
theorem eq_of_lowerAfter_lt {cs before : List Char}
    (h : ∀ d ∈ lowerAfter before cs, d.toNat < 97) : lowerAfter before cs = cs := by
  induction cs generalizing before with
  | nil => rfl
  | cons c rest ih =>
    rw [lowerAfter_cons] at h ⊢
    rw [ih fun d hd => h d (List.mem_append_right _ hd)]
    rcases lowerNext_cases before c rest with ⟨hs, -⟩ | hs
    · rw [hs]
      rfl
    · obtain ⟨d, hd⟩ := List.exists_mem_of_ne_nil _ (lowerNext_ne_nil before c rest)
      have hlt : d.toNat < 97 := h d (List.mem_append_left _ hd)
      exact absurd (hs d hd).beyond (by omega)

@[simp] theorem lowerAfter_eq_nil {cs before : List Char} :
    lowerAfter before cs = [] ↔ cs = [] := by
  cases cs with
  | nil => simp
  | cons c rest => simp [lowerAfter_cons, lowerNext_ne_nil]

/-- **A lowered text ends in a character that is not settled only if the text does.** -/
theorem getLast?_of_getLast?_lowerAfter {cs before : List Char} {d : Char}
    (h : (lowerAfter before cs).getLast? = some d) (hd : ¬ IsSettled d.toNat) :
    cs.getLast? = some d := by
  induction cs generalizing before with
  | nil => exact absurd h (by simp)
  | cons c rest ih =>
    rw [lowerAfter_cons] at h
    by_cases hrest : rest = []
    · subst hrest
      rw [lowerAfter_nil, List.append_nil] at h
      rcases lowerNext_cases before c [] with ⟨hs, -⟩ | hs
      · rw [hs] at h
        exact h
      · exact absurd (hs d (List.mem_of_getLast? h)) hd
    · have hne : lowerAfter (c :: before) rest ≠ [] := by simpa using hrest
      rw [List.getLast?_append_of_ne_nil _ hne] at h
      have hlast := ih h
      obtain ⟨a, rest, rfl⟩ := List.exists_cons_of_ne_nil hrest
      simpa [List.getLast?_cons_cons] using hlast

/-- A lowered text ends in a blank only if the text does. -/
theorem blank_of_getLast?_lowerAfter {cs before : List Char} {d : Char}
    (h : d ∈ (lowerAfter before cs).getLast?) (hd : isBlank d = true) : d ∈ cs.getLast? :=
  getLast?_of_getLast?_lowerAfter h fun hs => by
    rw [hs.char_not_blank] at hd
    cases hd

/-- A small character at the end of a text stays there. -/
theorem getLast?_lowerAfter_of_small {d : Char} (h : IsSmall d) (before cs : List Char) :
    (lowerAfter before (cs ++ [d])).getLast? = some d := by
  induction cs generalizing before with
  | nil => simp [lowerAfter_cons, h.lowerNext_eq]
  | cons c rest ih =>
    rw [List.cons_append, lowerAfter_cons, List.getLast?_append, ih]
    rfl

/-! ## 4. The text before

Only for a capital sigma it matters what stands before it, and then only up to the next character
that is not looked through.  So a piece of a text becomes the same alone and in its place unless a
capital sigma comes first in it, behind characters that are looked through at most. -/

theorem length_lowerNext (before before' : List Char) (c : Char) (rest : List Char) :
    (lowerNext before c rest).length = (lowerNext before' c rest).length := by
  unfold lowerNext
  split <;> rfl

/-- What stands before a text does not change how long it becomes. -/
theorem length_lowerAfter (before before' cs : List Char) :
    (lowerAfter before cs).length = (lowerAfter before' cs).length := by
  induction cs generalizing before before' with
  | nil => rfl
  | cons c rest ih =>
    rw [lowerAfter_cons, lowerAfter_cons, List.length_append, List.length_append,
      length_lowerNext before before', ih]

theorem meetsCased_append_of_all {b : List Char} (h : ∀ c ∈ b, isCaseIgnorable c = true)
    (before : List Char) : meetsCased (b ++ before) = meetsCased before := by
  simp only [meetsCased, List.dropWhile_append_of_pos h]

theorem meetsCased_of_all {b : List Char} (h : ∀ c ∈ b, isCaseIgnorable c = true) :
    meetsCased b = false := by
  simpa [meetsCased] using meetsCased_append_of_all h []

theorem meetsCased_append_of_any {b : List Char} (h : ∃ c ∈ b, isCaseIgnorable c = false)
    (before : List Char) : meetsCased (b ++ before) = meetsCased b := by
  obtain ⟨c, rest, hc⟩ := List.exists_cons_of_ne_nil
    (l := b.dropWhile isCaseIgnorable) (by simpa [List.dropWhile_eq_nil_iff] using h)
  simp [meetsCased, List.dropWhile_append, hc]

/-- What stands further ahead does not matter behind a character that is not looked through. -/
theorem lowerAfter_append_of_any {b : List Char} (h : ∃ c ∈ b, isCaseIgnorable c = false)
    (before cs : List Char) : lowerAfter (b ++ before) cs = lowerAfter b cs := by
  induction cs generalizing b with
  | nil => rfl
  | cons c rest ih =>
    have hsame : lowerNext (b ++ before) c rest = lowerNext b c rest := by
      simp only [lowerNext, lowerSigma, meetsCased_append_of_any h]
    obtain ⟨d, hd, hi⟩ := h
    rw [lowerAfter_cons, lowerAfter_cons, hsame,
      ← ih ⟨d, List.mem_cons_of_mem c hd, hi⟩, List.cons_append]

/-- **What stands before a text changes its first capital sigma**: it makes a final one of it. -/
def turnsSigma (before cs : List Char) : Bool :=
  match cs.dropWhile isCaseIgnorable with
  | c :: rest => decide (c = capitalSigma) && meetsCased before && !meetsCased rest
  | [] => false

theorem turnsSigma_cons_of_ignorable {c : Char} (h : isCaseIgnorable c = true)
    (before cs : List Char) : turnsSigma before (c :: cs) = turnsSigma before cs := by
  simp [turnsSigma, h]

theorem turnsSigma_cons_of_not_ignorable {c : Char} (h : isCaseIgnorable c = false)
    (before cs : List Char) : turnsSigma before (c :: cs) =
      (decide (c = capitalSigma) && meetsCased before && !meetsCased cs) := by
  simp [turnsSigma, h]

theorem sigma_not_ignorable : isCaseIgnorable capitalSigma = false := by decide +kernel

theorem lowerSigma_eq_iff {b before rest : List Char} (hb : meetsCased b = false) :
    lowerSigma before rest = lowerSigma b rest ↔
      (meetsCased before && !meetsCased rest) = false := by
  unfold lowerSigma
  rw [hb]
  cases meetsCased before && !meetsCased rest <;> simp

/-- **When it matters what stands before a text**: characters that are looked through come between
it and a capital sigma, and it makes a final one of that. -/
theorem lowerAfter_append_iff {b : List Char} (h : ∀ c ∈ b, isCaseIgnorable c = true)
    (before cs : List Char) :
    lowerAfter (b ++ before) cs = lowerAfter b cs ↔ turnsSigma before cs = false := by
  induction cs generalizing b with
  | nil => simp [turnsSigma]
  | cons c rest ih =>
    rw [lowerAfter_cons, lowerAfter_cons, ← List.cons_append]
    cases hc : isCaseIgnorable c with
    | true =>
      have hsigma : c ≠ capitalSigma := by
        rintro rfl
        rw [sigma_not_ignorable] at hc
        cases hc
      rw [turnsSigma_cons_of_ignorable hc, lowerNext, lowerNext, if_neg hsigma, if_neg hsigma,
        List.append_cancel_left_eq]
      exact ih (List.forall_mem_cons.mpr ⟨hc, h⟩)
    | false =>
      rw [turnsSigma_cons_of_not_ignorable hc,
        lowerAfter_append_of_any ⟨c, List.mem_cons_self, hc⟩, List.append_cancel_right_eq]
      by_cases hsigma : c = capitalSigma
      · rw [lowerNext, lowerNext, if_pos hsigma, if_pos hsigma, List.cons.injEq, and_iff_left rfl,
          lowerSigma_eq_iff (meetsCased_of_all h), meetsCased_append_of_all h]
        simp [hsigma]
      · simp [lowerNext, hsigma]

theorem lowerAfter_eq_lowerChars_iff (before cs : List Char) :
    lowerAfter before cs = lowerChars cs ↔ turnsSigma before cs = false :=
  lowerAfter_append_iff (b := []) (by simp) before cs

end Folio.Text
