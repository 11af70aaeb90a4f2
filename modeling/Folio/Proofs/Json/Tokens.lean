/-
# Written tokens are read back

`Token.text` writes a token and `Token.readAll` finds the tokens of a text.  Here the two are
brought together: a row of tokens that is written with any blanks between them is the row that is
found.

Two things make that true.  A string that is written with its escapes consists of pieces whose
characters are those of the string; and a number ends where its token ends, provided that no
other number follows it directly.  So the rows in question are those in which no two numbers are
neighbours, and in which every number is written as the digits of an integer.
-/
import Mathlib.Data.List.Chain
import Mathlib.Data.Nat.Digits.Defs
import Folio.Json.Reader
import Folio.Json.Writer

namespace Folio.Json

/-! ## 1. Strings -/

/-- **What is found where a character is written inside a string**: control characters that have
no letter of their own are written by their number. -/
def piece (c : Char) : Piece :=
  if c.toNat < 0x20 ∧ c.toNat ∉ [0x08, 0x0C, 0x0A, 0x0D, 0x09] then .unit c.toNat else .char c

theorem hexValue?_hexDigit : ∀ n : Fin 16, hexValue? (hexDigit n.val) = some n.val := by decide

/-- A control character is found from its two last digits. -/
theorem unit?_hexDigit {n : Nat} (h : n < 0x20) :
    unit? '0' '0' (hexDigit (n / 16)) (hexDigit (n % 16)) = some n := by
  have high := hexValue?_hexDigit ⟨n / 16, by omega⟩
  have low := hexValue?_hexDigit ⟨n % 16, by omega⟩
  have zero : hexValue? '0' = some 0 := by decide
  simp only [unit?, zero, high, low, Option.bind_eq_bind, Option.bind_some, Option.pure_def,
    Option.some.injEq]
  omega

/-! Three ways to write a character inside a string, and what is found there. -/

theorem pieces?_letter {e c : Char} (h : unescape? e = some c) (rest : List Char) :
    pieces? ('\\' :: e :: rest) = (pieces? rest).map fun p => (.char c :: p.1, p.2) := by
  have noUnit : e ≠ 'u' := by rintro rfl; simp [unescape?] at h
  rw [pieces?, h, Option.map_eq_bind]
  · rfl
  · rintro a b c d rest rfl
    exact absurd rfl noUnit

theorem pieces?_number {a b c d : Char} {n : Nat} (h : unit? a b c d = some n)
    (rest : List Char) :
    pieces? ('\\' :: 'u' :: a :: b :: c :: d :: rest) =
      (pieces? rest).map fun p => (.unit n :: p.1, p.2) := by
  rw [pieces?, h, Option.map_eq_bind]
  rfl

theorem pieces?_plain {c : Char} (printable : ¬ c.toNat < 0x20) (noQuote : c ≠ '"')
    (noEscape : c ≠ '\\') (rest : List Char) :
    pieces? (c :: rest) = (pieces? rest).map fun p => (.char c :: p.1, p.2) := by
  rw [pieces?, if_neg (by simp [printable, noEscape]), Option.map_eq_bind]
  · rfl
  · exact noQuote
  · intros; contradiction
  · intros; contradiction

theorem pieces?_escapeChar (c : Char) (rest : List Char) :
    pieces? (escapeChar c ++ rest) = (pieces? rest).map fun p => (piece c :: p.1, p.2) := by
  unfold escapeChar
  split
  · subst c; exact pieces?_letter (by decide) rest
  split
  · subst c; exact pieces?_letter (by decide) rest
  split
  · rename_i h
    obtain rfl : c = Char.ofNat 0x08 := by rw [← h, Char.ofNat_toNat]
    exact pieces?_letter (by decide) rest
  split
  · rename_i h
    obtain rfl : c = Char.ofNat 0x0C := by rw [← h, Char.ofNat_toNat]
    exact pieces?_letter (by decide) rest
  split
  · subst c; exact pieces?_letter (by decide) rest
  split
  · subst c; exact pieces?_letter (by decide) rest
  split
  · subst c; exact pieces?_letter (by decide) rest
  rename_i quote backslash back form line ret tab
  have notTab : c.toNat ≠ 0x09 := fun h => tab (Char.toNat_inj.mp h)
  have notLine : c.toNat ≠ 0x0A := fun h => line (Char.toNat_inj.mp h)
  have notReturn : c.toNat ≠ 0x0D := fun h => ret (Char.toNat_inj.mp h)
  split
  · rename_i control
    have numbered : piece c = .unit c.toNat := by simp [piece, *]
    rw [numbered]
    exact pieces?_number (unit?_hexDigit control) rest
  · rename_i printable
    have itself : piece c = .char c := by simp [piece, printable]
    rw [itself]
    exact pieces?_plain printable quote backslash rest

/-- A string between its quotes is found as the pieces of its characters. -/
theorem pieces?_quote (cs rest : List Char) :
    pieces? (cs.flatMap escapeChar ++ '"' :: rest) = some (cs.map piece, rest) := by
  induction cs with
  | nil => rw [List.flatMap_nil, List.nil_append, pieces?]; rfl
  | cons c cs ih =>
    rw [List.flatMap_cons, List.append_assoc, pieces?_escapeChar, ih]
    rfl

theorem assemble?_map_piece (cs : List Char) : assemble? none (cs.map piece) = some cs := by
  induction cs with
  | nil => rfl
  | cons c cs ih =>
    rw [List.map_cons, piece]
    split
    · rename_i control
      have high : isHighHalf c.toNat = false := by simp only [isHighHalf]; grind
      have low : isLowHalf c.toNat = false := by simp only [isLowHalf]; grind
      simp [assemble?, high, low, ih]
    · simp [assemble?, ih]

/-! ## 2. Numbers -/

/-- **A number that was read up to here is complete**: the text does not go on with a digit, a
point or an exponent. -/
def EndsNumber (rest : List Char) : Prop :=
  ∀ c ∈ rest.head?, isDigit c = false ∧ c ≠ '.' ∧ c ≠ 'e' ∧ c ≠ 'E'

/-- **An integer as it is written.** -/
def Literal.ofInt (i : Int) : Literal := ⟨decide (i < 0), Decimal.digits i.natAbs, none, none⟩

theorem Literal.text_ofInt (i : Int) : (Literal.ofInt i).text = Decimal.signedDigits i := by
  by_cases negative : i < 0 <;> simp [Literal.text, Literal.ofInt, Decimal.signedDigits, negative]

theorem digits_ne_nil (n : Nat) : Decimal.digits n ≠ [] := Nat.toDigits_ne_nil

theorem isDigit_of_mem_digits {n : Nat} {c : Char} (h : c ∈ Decimal.digits n) :
    isDigit c = true := by
  have := Nat.isDigit_of_mem_toDigits (by decide) (by decide) h
  simpa [isDigit, Char.isDigit, Char.le_def] using this

/-- Only zero is written with a zero in front. -/
theorem head?_digits {n : Nat} (h : n ≠ 0) : (Decimal.digits n).head? ≠ some '0' := by
  induction n using Nat.strongRecOn with
  | _ n ih =>
    rw [Decimal.digits, Nat.toDigits_eq_if (by decide)]
    split
    · rename_i small
      have : ∀ m : Fin 10, m.val ≠ 0 → Nat.digitChar m.val ≠ '0' := by decide
      simpa using this ⟨n, small⟩ h
    · have shorter := ih (n / 10) (by omega) (by omega)
      rwa [List.head?_append_of_ne_nil _ Nat.toDigits_ne_nil]

theorem digits?_append {ds rest : List Char} (all : ∀ c ∈ ds, isDigit c = true) (some : ds ≠ [])
    (ends : EndsNumber rest) : digits? (ds ++ rest) = .some (ds, rest) := by
  have stops : rest.takeWhile isDigit = [] ∧ rest.dropWhile isDigit = rest := by
    cases rest with
    | nil => exact ⟨rfl, rfl⟩
    | cons c rest => simp [(ends c rfl).1]
  obtain ⟨d, ds, rfl⟩ := List.exists_cons_of_ne_nil some
  rw [digits?, List.takeWhile_append_of_pos all, List.dropWhile_append_of_pos all, stops.1,
    stops.2, List.append_nil]

theorem whole?_digits (n : Nat) {rest : List Char} (ends : EndsNumber rest) :
    whole? (Decimal.digits n ++ rest) = some (Decimal.digits n, rest) := by
  by_cases zero : n = 0
  · subst n; rfl
  · have front := head?_digits zero
    rw [whole?]
    · exact digits?_append (fun c hc => isDigit_of_mem_digits hc) (digits_ne_nil n) ends
    · intro tail same
      rw [← List.head?_append_of_ne_nil _ (digits_ne_nil n), same] at front
      exact front rfl

theorem fraction?_of_ends {rest : List Char} (ends : EndsNumber rest) :
    fraction? rest = some (none, rest) := by
  cases rest with
  | nil => rfl
  | cons c rest =>
    have := (ends c rfl).2.1
    rw [fraction?]
    simpa using this

theorem exponent?_of_ends {rest : List Char} (ends : EndsNumber rest) :
    exponent? rest = some (none, rest) := by
  cases rest with
  | nil => rfl
  | cons c rest => simp [exponent?, (ends c rfl).2.2]

theorem literal?_ofInt (i : Int) {rest : List Char} (ends : EndsNumber rest) :
    literal? ((Literal.ofInt i).text ++ rest) = some (.ofInt i, rest) := by
  have whole := whole?_digits i.natAbs ends
  have fraction := fraction?_of_ends ends
  have exponent := exponent?_of_ends ends
  rw [Literal.text_ofInt, Decimal.signedDigits]
  by_cases negative : i < 0
  · simp [literal?, Literal.ofInt, negative, whole, fraction, exponent]
  · obtain ⟨d, ds, shape⟩ := List.exists_cons_of_ne_nil (digits_ne_nil i.natAbs)
    have noSign : d ≠ '-' := by
      rintro rfl
      exact absurd (isDigit_of_mem_digits (shape ▸ List.mem_cons_self)) (by decide)
    rw [shape, List.cons_append] at whole
    simp [literal?, Literal.ofInt, negative, shape, whole, fraction, exponent, noSign]

/-! ## 3. One token -/

/-- **A token that is read back**: a string has a text, a number is an integer. -/
def Token.IsPlain : Token → Prop
  | .number l => ∃ i, l = .ofInt i
  | .string s => s.isSome
  | _ => True

/-- The token is a number. -/
def Token.isNumber : Token → Bool
  | .number _ => true
  | _ => false

/-- A text that begins like a number is looked at as one: no other token begins like that. -/
theorem Token.next?_eq_literal? {c : Char} (h : c = '-' ∨ isDigit c = true) (cs : List Char) :
    Token.next? (c :: cs) = (literal? (c :: cs)).map fun p => (.number p.1, p.2) := by
  have other : ∀ d ∈ ['[', ']', '\x7b', '\x7d', ':', ',', 'n', 't', 'f', '"'], c ≠ d := by
    rintro d hd rfl
    revert hd
    rcases h with rfl | digit
    · decide
    · intro hd
      simp only [List.mem_cons, List.not_mem_nil, or_false] at hd
      rcases hd with rfl | rfl | rfl | rfl | rfl | rfl | rfl | rfl | rfl | rfl <;>
        exact absurd digit (by decide)
  rw [Token.next?, Option.map_eq_bind]
  · rfl
  all_goals
    intros
    rename_i same
    exact other _ (by simp) (List.cons.inj same).1

theorem head?_ofInt (i : Int) :
    ∃ c cs, (Literal.ofInt i).text = c :: cs ∧ (c = '-' ∨ isDigit c = true) := by
  rw [Literal.text_ofInt, Decimal.signedDigits]
  split
  · exact ⟨'-', _, rfl, .inl rfl⟩
  · obtain ⟨d, ds, shape⟩ := List.exists_cons_of_ne_nil (digits_ne_nil i.natAbs)
    exact ⟨d, ds, shape, .inr (isDigit_of_mem_digits (shape ▸ List.mem_cons_self))⟩

theorem Token.next?_number (i : Int) {rest : List Char} (ends : EndsNumber rest) :
    Token.next? ((Literal.ofInt i).text ++ rest) = some (.number (.ofInt i), rest) := by
  have read := literal?_ofInt i ends
  obtain ⟨c, cs, shape, first⟩ := head?_ofInt i
  rw [shape, List.cons_append] at read ⊢
  rw [Token.next?_eq_literal? first, read]
  rfl

theorem Token.next?_text {t : Token} (plain : t.IsPlain) {rest : List Char}
    (ends : t.isNumber = true → EndsNumber rest) :
    Token.next? (t.text ++ rest) = some (t, rest) := by
  cases t with
  | openArray | closeArray | openObject | closeObject | colon | comma | null => rfl
  | bool b => cases b <;> rfl
  | number l =>
    obtain ⟨i, rfl⟩ := plain
    exact Token.next?_number i (ends rfl)
  | string s =>
    obtain ⟨s, rfl⟩ := Option.isSome_iff_exists.mp plain
    simp only [Token.text, Option.getD_some, quote, List.cons_append, List.append_assoc,
      List.nil_append, Token.next?, pieces?_quote, Option.bind_eq_bind, Option.bind_some,
      assemble?_map_piece, Option.map_some, String.ofList_toList, Option.pure_def]

/-- What follows a number ends it, unless it is another number. -/
theorem Token.endsNumber_text {t : Token} (h : t.isNumber = false) (rest : List Char) :
    EndsNumber (t.text ++ rest) := by
  cases t with
  | openArray | closeArray | openObject | closeObject | colon | comma | null =>
    intro c hc; cases hc; decide
  | bool b => cases b <;> (intro c hc; cases hc; decide)
  | number l => cases h
  | string s => intro c hc; cases hc; decide

/-- A token begins with a character that is no blank. -/
theorem Token.head?_text {t : Token} (plain : t.IsPlain) :
    ∃ c cs, t.text = c :: cs ∧ isBlank c = false := by
  cases t with
  | openArray | closeArray | openObject | closeObject | colon | comma | null =>
    exact ⟨_, _, rfl, by decide⟩
  | bool b => cases b <;> exact ⟨_, _, rfl, by decide⟩
  | number l =>
    obtain ⟨i, rfl⟩ := plain
    obtain ⟨c, cs, shape, rfl | digit⟩ := head?_ofInt i
    · exact ⟨_, _, shape, by decide⟩
    · refine ⟨c, cs, shape, ?_⟩
      by_contra blank
      simp only [isBlank, Bool.not_eq_false, Bool.or_eq_true, beq_iff_eq] at blank
      rcases blank with ((rfl | rfl) | rfl) | rfl <;> exact absurd digit (by decide)
  | string s => exact ⟨'"', _, rfl, by decide⟩

/-! ## 4. A row of tokens -/

/-- **A row of tokens as a text**, each behind blanks of its own. -/
def spaced (row : List (List Char × Token)) : List Char := row.flatMap fun p => p.1 ++ p.2.text

/-- **A row that is read back**: its tokens are, there are only blanks between them, and no two
numbers are neighbours. -/
structure IsLegible (row : List (List Char × Token)) : Prop where
  blank : ∀ p ∈ row, ∀ c ∈ p.1, isBlank c = true
  plain : ∀ p ∈ row, p.2.IsPlain
  apart : (row.map (·.2)).IsChain fun t u => t.isNumber = true → u.isNumber = false

namespace IsLegible

variable {p : List Char × Token} {row : List (List Char × Token)}

theorem tail (h : IsLegible (p :: row)) : IsLegible row where
  blank q hq := h.blank q (List.mem_cons_of_mem p hq)
  plain q hq := h.plain q (List.mem_cons_of_mem p hq)
  apart := h.apart.tail

/-- A number at the front ends where the rest of the row begins. -/
theorem endsNumber (h : IsLegible (p :: row)) (number : p.2.isNumber = true) :
    EndsNumber (spaced row) := by
  cases row with
  | nil => intro c hc; cases hc
  | cons q row =>
    obtain ⟨blanks, u⟩ := q
    cases blanks with
    | nil =>
      have other : u.isNumber = false := by
        have := h.apart
        simp only [List.map_cons, List.isChain_cons_cons] at this
        exact this.1 number
      exact Token.endsNumber_text other _
    | cons b blanks =>
      have blank : isBlank b = true :=
        h.blank _ (List.mem_cons_of_mem p List.mem_cons_self) b List.mem_cons_self
      intro c hc
      obtain rfl : b = c := by simpa [spaced] using hc
      simp only [isBlank, Bool.or_eq_true, beq_iff_eq] at blank
      rcases blank with ((rfl | rfl) | rfl) | rfl <;> decide

end IsLegible

theorem readMost_spaced {row : List (List Char × Token)} (h : IsLegible row) {fuel : Nat}
    (enough : row.length ≤ fuel) :
    Token.readMost fuel (spaced row) = some (row.map (·.2)) := by
  induction row generalizing fuel with
  | nil => cases fuel <;> rfl
  | cons p row ih =>
    obtain ⟨fuel, rfl⟩ : ∃ n, fuel = n + 1 := ⟨fuel - 1, by simp at enough; omega⟩
    have plain := h.plain p List.mem_cons_self
    have front : Token.next? (p.2.text ++ spaced row) = some (p.2, spaced row) :=
      Token.next?_text plain h.endsNumber
    obtain ⟨c, cs, shape, solid⟩ := Token.head?_text plain
    have skipped : (spaced (p :: row)).dropWhile isBlank = c :: (cs ++ spaced row) := by
      have blanks := h.blank p List.mem_cons_self
      simp [spaced, List.dropWhile_append_of_pos blanks, shape, solid]
    rw [shape, List.cons_append] at front
    rw [Token.readMost, skipped]
    simp [front, ih h.tail (by simpa using enough)]

theorem length_le_spaced {row : List (List Char × Token)} (h : IsLegible row) :
    row.length ≤ (spaced row).length := by
  induction row with
  | nil => exact Nat.le_refl 0
  | cons p row ih =>
    obtain ⟨c, cs, shape, -⟩ := Token.head?_text (h.plain p List.mem_cons_self)
    have := ih h.tail
    simp only [spaced, List.flatMap_cons, List.length_append, List.length_cons, shape] at this ⊢
    omega

/-- **The tokens of a row are found in its text.** -/
theorem readAll_spaced {row : List (List Char × Token)} (h : IsLegible row) :
    Token.readAll (spaced row) = some (row.map (·.2)) :=
  readMost_spaced h (length_le_spaced h)

/-! ## 5. Layouts -/

/-- **The text lays out the tokens**: it is made of them in their order, each behind blanks of its
own. -/
def LaysOut (cs : List Char) (ts : List Token) : Prop :=
  ∃ row, (∀ p ∈ row, ∀ c ∈ p.1, isBlank c = true) ∧ row.map (·.2) = ts ∧ spaced row = cs

namespace LaysOut

variable {cs ds : List Char} {ts us : List Token}

theorem token (t : Token) : LaysOut t.text [t] := ⟨[([], t)], by simp, rfl, by simp [spaced]⟩

theorem append (front : LaysOut cs ts) (back : LaysOut ds us) : LaysOut (cs ++ ds) (ts ++ us) := by
  obtain ⟨row, blank, rfl, rfl⟩ := front
  obtain ⟨more, blanks, rfl, rfl⟩ := back
  refine ⟨row ++ more, ?_, List.map_append, List.flatMap_append⟩
  intro p hp
  exact (List.mem_append.mp hp).elim (blank p) (blanks p)

/-- Blanks in front belong to the first token; without one they would stand alone. -/
theorem indent {bs : List Char} (blanks : ∀ c ∈ bs, isBlank c = true) (h : LaysOut cs ts)
    (some : ts ≠ []) : LaysOut (bs ++ cs) ts := by
  obtain ⟨row, blank, rfl, rfl⟩ := h
  obtain ⟨p, row, rfl⟩ := List.exists_cons_of_ne_nil (mt List.map_eq_nil_iff.mpr some)
  refine ⟨(bs ++ p.1, p.2) :: row, ?_, rfl, by simp [spaced]⟩
  refine List.forall_mem_cons.mpr ⟨?_, (List.forall_mem_cons.mp blank).2⟩
  intro c hc
  exact (List.mem_append.mp hc).elim (blanks c) (blank p List.mem_cons_self c)

/-- Tokens that follow each other directly. -/
theorem flatMap_text (ts : List Token) : LaysOut (ts.flatMap Token.text) ts :=
  ⟨ts.map ([], ·), by simp, by simp [Function.comp_def], by simp [spaced, List.flatMap_map]⟩

/-- **The tokens are found in every text that lays them out.** -/
theorem readAll (h : LaysOut cs ts) (plain : ∀ t ∈ ts, t.IsPlain)
    (apart : ts.IsChain fun t u => t.isNumber = true → u.isNumber = false) :
    Token.readAll cs = some ts := by
  obtain ⟨row, blank, rfl, rfl⟩ := h
  exact readAll_spaced ⟨blank, fun p hp => plain p.2 (List.mem_map_of_mem hp), apart⟩

end LaysOut

end Folio.Json
