/-
# Two ways to compare names

Names that differ in letter case only are the same name.  There are two readings of this: the texts
agree in lower case (`lower`), or they agree when the capital letters of ASCII are made small
(`sameAscii`).  The second is the finer one: to make the letters of ASCII small first changes
nothing of the lower case (`lower_lowerAscii`).

The readings agree on the names whose capital letters are all of ASCII (`AsciiCapitals`), whatever
small letters and other characters they have.  Of all other names the lower case changes more than
letters of ASCII (`lower_eq_lowerAscii_iff`).
-/
import Folio.Proofs.Text.Lower

namespace Folio.Text

/-! ## 1. Capital letters of ASCII -/

/-- The capital letters of ASCII are twenty-six in a row. -/
theorem exists_of_isUpper {c : Char} (h : c.isUpper = true) :
    ∃ i < 26, c = Char.ofNat (65 + i) := by
  have codes : 'A'.val ≤ c.val ∧ c.val ≤ 'Z'.val := of_decide_eq_true h
  have low : 65 ≤ c.toNat := UInt32.le_iff_toNat_le.mp codes.1
  have high : c.toNat ≤ 90 := UInt32.le_iff_toNat_le.mp codes.2
  refine ⟨c.toNat - 65, by omega, ?_⟩
  rw [Nat.add_sub_cancel' low, Char.ofNat_toNat]

/-- **A capital letter of ASCII and its small letter** are alike to the rules of lower case. -/
structure FoldsPlainly (c : Char) : Prop where
  lowerChar : Text.lowerChar c = [c.toLower]
  lowerChar_toLower : Text.lowerChar c.toLower = [c.toLower]
  no_sigma : c ≠ capitalSigma
  toLower_no_sigma : c.toLower ≠ capitalSigma
  toLower_ne : c.toLower ≠ c
  cased : isCased c.toLower = isCased c
  ignorable : isCaseIgnorable c.toLower = isCaseIgnorable c

theorem foldsPlainly_of_isUpper {c : Char} (h : c.isUpper = true) : FoldsPlainly c := by
  have all : ∀ i < 26, let c := Char.ofNat (65 + i)
      Text.lowerChar c = [c.toLower] ∧ Text.lowerChar c.toLower = [c.toLower] ∧
      c ≠ capitalSigma ∧ c.toLower ≠ capitalSigma ∧ c.toLower ≠ c ∧
      isCased c.toLower = isCased c ∧ isCaseIgnorable c.toLower = isCaseIgnorable c := by
    decide +kernel
  obtain ⟨i, small, rfl⟩ := exists_of_isUpper h
  obtain ⟨h₁, h₂, h₃, h₄, h₅, h₆, h₇⟩ := all i small
  exact ⟨h₁, h₂, h₃, h₄, h₅, h₆, h₇⟩

theorem toLower_of_not_isUpper {c : Char} (h : c.isUpper = false) : c.toLower = c := by
  exact dif_neg (of_decide_eq_false h)

/-- Small characters are no capital letters of ASCII. -/
theorem IsSmall.toLower_eq {c : Char} (h : IsSmall c) : c.toLower = c := by
  cases capital : c.isUpper with
  | false => exact toLower_of_not_isUpper capital
  | true =>
    have plain := foldsPlainly_of_isUpper capital
    have same : [c] = [c.toLower] := h.2.symm.trans plain.lowerChar
    exact absurd (List.singleton_inj.mp same).symm plain.toLower_ne

/-! ## 2. Letters of ASCII first -/

/-- Whether a cased letter is met does not depend on its case. -/
theorem meetsCased_map_toLower (cs : List Char) :
    meetsCased (cs.map Char.toLower) = meetsCased cs := by
  have alike (c : Char) : isCaseIgnorable c.toLower = isCaseIgnorable c ∧
      isCased c.toLower = isCased c := by
    cases capital : c.isUpper with
    | false =>
      rw [toLower_of_not_isUpper capital]
      exact ⟨rfl, rfl⟩
    | true =>
      have plain := foldsPlainly_of_isUpper capital
      exact ⟨plain.ignorable, plain.cased⟩
  have looked : isCaseIgnorable ∘ Char.toLower = isCaseIgnorable := funext fun c => (alike c).1
  unfold meetsCased
  rw [List.dropWhile_map, looked]
  cases cs.dropWhile isCaseIgnorable with
  | nil => rfl
  | cons c rest => exact (alike c).2

theorem lowerNext_map_toLower (before : List Char) (c : Char) (rest : List Char) :
    lowerNext (before.map Char.toLower) c.toLower (rest.map Char.toLower) =
      lowerNext before c rest := by
  unfold lowerNext
  cases capital : c.isUpper with
  | false =>
    rw [toLower_of_not_isUpper capital]
    simp only [lowerSigma, meetsCased_map_toLower]
  | true =>
    have plain := foldsPlainly_of_isUpper capital
    rw [if_neg plain.toLower_no_sigma, if_neg plain.no_sigma, plain.lowerChar_toLower,
      plain.lowerChar]

theorem lowerAfter_map_toLower (before cs : List Char) :
    lowerAfter (before.map Char.toLower) (cs.map Char.toLower) = lowerAfter before cs := by
  induction cs generalizing before with
  | nil => rfl
  | cons c rest ih =>
    have next : lowerAfter (c.toLower :: before.map Char.toLower) (rest.map Char.toLower) =
        lowerAfter (c :: before) rest := ih (c :: before)
    rw [List.map_cons, lowerAfter_cons, lowerAfter_cons, lowerNext_map_toLower, next]

/-- **To make the letters of ASCII small first** changes nothing of the lower case. -/
theorem lower_lowerAscii (s : String) : lower (lowerAscii s) = lower s := by
  have same := lowerAfter_map_toLower [] s.toList
  simp only [lower, lowerAscii, lowerChars, String.toList_ofList]
  exact congrArg String.ofList same

/-- **Names that are the same up to the letters of ASCII** are the same in lower case. -/
theorem lower_eq_of_sameAscii {a b : String} (same : sameAscii a b = true) : lower a = lower b := by
  have ascii : lowerAscii a = lowerAscii b := beq_iff_eq.mp same
  rw [← lower_lowerAscii a, ascii, lower_lowerAscii]

/-! ## 3. Where the two readings agree -/

/-- **All capital letters of the text are of ASCII**: lower-casing leaves every other character. -/
def AsciiCapitals (s : String) : Prop := ∀ c ∈ s.toList, c.isUpper = true ∨ IsSmall c

instance (c : Char) : Decidable (IsSmall c) :=
  inferInstanceAs (Decidable (c ≠ capitalSigma ∧ lowerChar c = [c]))

instance (s : String) : Decidable (AsciiCapitals s) :=
  List.decidableBAll (fun c : Char => c.isUpper = true ∨ IsSmall c) s.toList

/-- A character becomes its small letter of ASCII just if it is a capital letter of ASCII, or
stays. -/
theorem lowerNext_eq_toLower {before : List Char} {c : Char} {rest : List Char}
    (h : c.isUpper = true ∨ IsSmall c) : lowerNext before c rest = [c.toLower] := by
  rcases h with capital | small
  · have plain := foldsPlainly_of_isUpper capital
    rw [lowerNext, if_neg plain.no_sigma, plain.lowerChar]
  · rw [small.lowerNext_eq, small.toLower_eq]

theorem ascii_or_small_of_head {before : List Char} {c : Char} {rest more : List Char}
    (h : lowerNext before c rest ++ more = c.toLower :: rest.map Char.toLower) :
    c.isUpper = true ∨ IsSmall c := by
  cases capital : c.isUpper with
  | true => exact .inl rfl
  | false =>
    rw [toLower_of_not_isUpper capital] at h
    rcases lowerNext_cases before c rest with ⟨-, small⟩ | settled
    · exact .inr small
    · -- what comes first of a settled image is the character itself, so that is settled
      obtain ⟨d, ds, made⟩ := List.exists_cons_of_ne_nil (lowerNext_ne_nil before c rest)
      rw [made, List.cons_append, List.cons.injEq] at h
      refine .inr (h.1 ▸ (settled d ?_).isSmall)
      rw [made]
      exact List.mem_cons_self

theorem lowerAfter_eq_map_toLower_iff (before cs : List Char) :
    lowerAfter before cs = cs.map Char.toLower ↔ ∀ c ∈ cs, c.isUpper = true ∨ IsSmall c := by
  induction cs generalizing before with
  | nil => simp
  | cons c rest ih =>
    rw [lowerAfter_cons, List.map_cons, List.forall_mem_cons, ← ih (c :: before)]
    constructor
    · intro same
      have plain := ascii_or_small_of_head same
      rw [lowerNext_eq_toLower plain, List.singleton_append, List.cons.injEq] at same
      exact ⟨plain, same.2⟩
    · rintro ⟨plain, tail⟩
      rw [lowerNext_eq_toLower plain, tail, List.singleton_append]

/-- **Only letters of ASCII are changed** by lower-casing just if all capitals are of ASCII. -/
theorem lower_eq_lowerAscii_iff (s : String) : lower s = lowerAscii s ↔ AsciiCapitals s := by
  rw [lower, lowerAscii, String.ofList_inj]
  exact lowerAfter_eq_map_toLower_iff [] s.toList

/-- **The two readings agree** on names whose capital letters are all of ASCII. -/
theorem sameAscii_iff {a b : String} (ha : AsciiCapitals a) (hb : AsciiCapitals b) :
    sameAscii a b = true ↔ lower a = lower b := by
  rw [sameAscii, beq_iff_eq, (lower_eq_lowerAscii_iff a).mpr ha, (lower_eq_lowerAscii_iff b).mpr hb]

end Folio.Text
