/-
# What is persisted can be loaded again

A text is persisted as it is, and bytes are persisted in base64, which `Base64.decode` reads back:
the groups are full, the padding is where it belongs, and the unused bits are zero.  On the way the
symbols become characters, none of which is a blank, and the characters become bytes again.

So a model that loads what another one of its kind is persisted as gets the same value
(`ModelValue.load_content`).
-/
import Folio.Document.Model

namespace Folio

namespace Base64

/-! ## 1. Groups -/

/-- Four groups of six bits make up the three bytes that they come from. -/
theorem joinFour_split (a b c : UInt8) :
    joinFour (a.toNat / 4) (a.toNat % 4 * 16 + b.toNat / 16) (b.toNat % 16 * 4 + c.toNat / 64)
      (c.toNat % 64) = [a, b, c] := by
  have ha : a.toNat < 256 := a.toNat_lt
  have hb : b.toNat < 256 := b.toNat_lt
  have hc : c.toNat < 256 := c.toNat_lt
  have first : a.toNat / 4 * 4 + (a.toNat % 4 * 16 + b.toNat / 16) / 16 = a.toNat := by omega
  have second : (a.toNat % 4 * 16 + b.toNat / 16) % 16 * 16 +
      (b.toNat % 16 * 4 + c.toNat / 64) / 4 = b.toNat := by omega
  have third : (b.toNat % 16 * 4 + c.toNat / 64) % 4 * 64 + c.toNat % 64 = c.toNat := by omega
  rw [joinFour, first, second, third, UInt8.ofNat_toNat, UInt8.ofNat_toNat, UInt8.ofNat_toNat]

/-- A symbol is read as its six bits, wherever it stands. -/
theorem valueAt_symbol (place : Nat) {n : Nat} (h : n < 64) : valueAt place (symbol n) = .ok n := by
  rw [valueAt, value?_symbol h]

/-- In front of the padding a symbol is read as its six bits. -/
theorem lastSymbols_symbol (start before : Nat) {n : Nat} (h : n < 64) (rest : List UInt8) :
    lastSymbols start before (symbol n :: rest) =
      (lastSymbols start (before + 1) rest).map ((n, symbol n) :: ·) := by
  rw [lastSymbols, if_neg (symbol_ne_padding h), valueAt_symbol _ h]
  rfl

/-- The symbols of a last group are what stands in front of the padding. -/
theorem decodeLast_of_symbols {start : Nat} {bytes : List UInt8} {symbols : List (Nat × UInt8)}
    (h : lastSymbols start 0 bytes = .ok symbols) (enough : 2 ≤ symbols.length)
    (full : bytes.length = 4) : decodeLast start bytes = joinLast start symbols := by
  simp only [decodeLast, h, bind, Except.bind, full, ne_eq, not_true_eq_false, if_false]
  rw [if_neg (Nat.not_lt.mpr enough)]

/-- A last group of one byte. -/
theorem decodeLast_one (start : Nat) (a : UInt8) :
    decodeLast start (encode [a]) = .ok [a] := by
  have ha : a.toNat < 256 := a.toNat_lt
  have h1 : a.toNat / 4 < 64 := by omega
  have h2 : a.toNat % 4 * 16 < 64 := by omega
  have unused : a.toNat % 4 * 16 % 16 = 0 := by omega
  have joined : a.toNat / 4 * 4 + a.toNat % 4 * 16 / 16 = a.toNat := by omega
  have symbols : lastSymbols start 0 (encode [a]) =
      .ok [(a.toNat / 4, symbol (a.toNat / 4)), (a.toNat % 4 * 16, symbol (a.toNat % 4 * 16))] := by
    rw [encode, lastSymbols_symbol _ _ h1, lastSymbols_symbol _ _ h2]
    rfl
  rw [decodeLast_of_symbols symbols (by simp) rfl, joinLast, if_pos unused, joined,
    UInt8.ofNat_toNat]

/-- A last group of two bytes. -/
theorem decodeLast_two (start : Nat) (a b : UInt8) :
    decodeLast start (encode [a, b]) = .ok [a, b] := by
  have ha : a.toNat < 256 := a.toNat_lt
  have hb : b.toNat < 256 := b.toNat_lt
  have h1 : a.toNat / 4 < 64 := by omega
  have h2 : a.toNat % 4 * 16 + b.toNat / 16 < 64 := by omega
  have h3 : b.toNat % 16 * 4 < 64 := by omega
  have unused : b.toNat % 16 * 4 % 4 = 0 := by omega
  have first : a.toNat / 4 * 4 + (a.toNat % 4 * 16 + b.toNat / 16) / 16 = a.toNat := by omega
  have second : (a.toNat % 4 * 16 + b.toNat / 16) % 16 * 16 + b.toNat % 16 * 4 / 4 = b.toNat := by
    omega
  have symbols : lastSymbols start 0 (encode [a, b]) =
      .ok [(a.toNat / 4, symbol (a.toNat / 4)),
        (a.toNat % 4 * 16 + b.toNat / 16, symbol (a.toNat % 4 * 16 + b.toNat / 16)),
        (b.toNat % 16 * 4, symbol (b.toNat % 16 * 4))] := by
    rw [encode, lastSymbols_symbol _ _ h1, lastSymbols_symbol _ _ h2, lastSymbols_symbol _ _ h3]
    rfl
  rw [decodeLast_of_symbols symbols (by simp) rfl, joinLast, if_pos unused, first, second,
    UInt8.ofNat_toNat, UInt8.ofNat_toNat]

/-- A last group of three bytes. -/
theorem decodeLast_three (start : Nat) (a b c : UInt8) :
    decodeLast start (encode [a, b, c]) = .ok [a, b, c] := by
  have ha : a.toNat < 256 := a.toNat_lt
  have hb : b.toNat < 256 := b.toNat_lt
  have hc : c.toNat < 256 := c.toNat_lt
  have h1 : a.toNat / 4 < 64 := by omega
  have h2 : a.toNat % 4 * 16 + b.toNat / 16 < 64 := by omega
  have h3 : b.toNat % 16 * 4 + c.toNat / 64 < 64 := by omega
  have h4 : c.toNat % 64 < 64 := by omega
  have symbols : lastSymbols start 0 (encode [a, b, c]) =
      .ok [(a.toNat / 4, symbol (a.toNat / 4)),
        (a.toNat % 4 * 16 + b.toNat / 16, symbol (a.toNat % 4 * 16 + b.toNat / 16)),
        (b.toNat % 16 * 4 + c.toNat / 64, symbol (b.toNat % 16 * 4 + c.toNat / 64)),
        (c.toNat % 64, symbol (c.toNat % 64))] := by
    rw [encode, lastSymbols_symbol _ _ h1, lastSymbols_symbol _ _ h2, lastSymbols_symbol _ _ h3,
      lastSymbols_symbol _ _ h4]
    rfl
  rw [decodeLast_of_symbols symbols (by simp) rfl, joinLast, joinFour_split]

/-! ## 2. Texts -/

/-- **The groups of a text are read back**, three bytes at a time. -/
theorem decodeFrom_encode (start : Nat) : (bytes : List UInt8) →
    decodeFrom start (encode bytes) = .ok bytes
  | [] => rfl
  | [a] => decodeLast_one start a
  | [a, b] => decodeLast_two start a b
  | [a, b, c] => decodeLast_three start a b c
  | a :: b :: c :: d :: rest => by
    have ha : a.toNat < 256 := a.toNat_lt
    have hb : b.toNat < 256 := b.toNat_lt
    have hc : c.toNat < 256 := c.toNat_lt
    have h1 : a.toNat / 4 < 64 := by omega
    have h2 : a.toNat % 4 * 16 + b.toNat / 16 < 64 := by omega
    have h3 : b.toNat % 16 * 4 + c.toNat / 64 < 64 := by omega
    have h4 : c.toNat % 64 < 64 := by omega
    have ih := decodeFrom_encode (start + 4) (d :: rest)
    obtain ⟨e, tail, more⟩ : ∃ e tail, encode (d :: rest) = e :: tail := by
      rcases rest with _ | ⟨_, _ | ⟨_, _⟩⟩ <;> exact ⟨_, _, rfl⟩
    rw [encode, more, decodeFrom, valueAt_symbol _ h1, valueAt_symbol _ h2, valueAt_symbol _ h3,
      valueAt_symbol _ h4, ← more, ih]
    exact congrArg (fun bytes => Except.ok (bytes ++ d :: rest)) (joinFour_split a b c)

/-- Texts are made of groups of four. -/
theorem length_encode_mod : (bytes : List UInt8) → (encode bytes).length % 4 = 0
  | [] => rfl
  | [_] => by simp [encode]
  | [_, _] => by simp [encode]
  | a :: b :: c :: rest => by
    have ih := length_encode_mod rest
    simp only [encode, List.length_cons]
    omega

/-- **Decoding inverts encoding.** -/
theorem decode_encode (bytes : List UInt8) : decode (encode bytes) = .ok bytes := by
  unfold decode
  split
  · rw [if_neg, decodeFrom_encode]
    rw [length_encode_mod]
    exact fun h => absurd h.1 (by decide)
  · exact decodeFrom_encode 0 bytes

/-! ## 3. Characters -/

/-- A byte that a text is made of: a symbol or padding. -/
theorem mem_encode : (bytes : List UInt8) → ∀ b ∈ encode bytes,
    b = padding ∨ ∃ n < 64, b = symbol n
  | [], b, hb => absurd hb List.not_mem_nil
  | [a], b, hb => by
    have ha : a.toNat < 256 := a.toNat_lt
    simp only [encode, List.mem_cons, List.not_mem_nil, or_false] at hb
    rcases hb with rfl | rfl | rfl | rfl
    · exact Or.inr ⟨_, by omega, rfl⟩
    · exact Or.inr ⟨_, by omega, rfl⟩
    · exact Or.inl rfl
    · exact Or.inl rfl
  | [a, c], b, hb => by
    have ha : a.toNat < 256 := a.toNat_lt
    have hc : c.toNat < 256 := c.toNat_lt
    simp only [encode, List.mem_cons, List.not_mem_nil, or_false] at hb
    rcases hb with rfl | rfl | rfl | rfl
    · exact Or.inr ⟨_, by omega, rfl⟩
    · exact Or.inr ⟨_, by omega, rfl⟩
    · exact Or.inr ⟨_, by omega, rfl⟩
    · exact Or.inl rfl
  | a :: c :: d :: rest, b, hb => by
    have ha : a.toNat < 256 := a.toNat_lt
    have hc : c.toNat < 256 := c.toNat_lt
    have hd : d.toNat < 256 := d.toNat_lt
    simp only [encode, List.mem_cons] at hb
    rcases hb with rfl | rfl | rfl | rfl | hb
    · exact Or.inr ⟨_, by omega, rfl⟩
    · exact Or.inr ⟨_, by omega, rfl⟩
    · exact Or.inr ⟨_, by omega, rfl⟩
    · exact Or.inr ⟨_, by omega, rfl⟩
    · exact mem_encode rest b hb

/-- Such a byte becomes a character that is no blank and that is written as the byte again. -/
theorem char_of_mem_encode {bytes : List UInt8} {b : UInt8} (h : b ∈ encode bytes) :
    Text.isBlank (Char.ofNat b.toNat) = false ∧
      String.utf8EncodeChar (Char.ofNat b.toNat) = [b] := by
  have symbols : ∀ n : Fin 64, Text.isBlank (Char.ofNat (symbol n.val).toNat) = false ∧
      String.utf8EncodeChar (Char.ofNat (symbol n.val).toNat) = [symbol n.val] := by decide
  rcases mem_encode bytes b h with rfl | ⟨n, hn, rfl⟩
  · decide
  · exact symbols ⟨n, hn⟩

/-- Bytes that are characters by themselves are written as they are. -/
theorem flatMap_utf8EncodeChar : (bytes : List UInt8) →
    (∀ b ∈ bytes, String.utf8EncodeChar (Char.ofNat b.toNat) = [b]) →
    (bytes.map fun b => Char.ofNat b.toNat).flatMap String.utf8EncodeChar = bytes
  | [], _ => rfl
  | b :: rest, h => by
    have ih := flatMap_utf8EncodeChar rest fun c hc => h c (List.mem_cons_of_mem b hc)
    rw [List.map_cons, List.flatMap_cons, h b List.mem_cons_self, ih]
    rfl

/-- None of the characters that are written for bytes is a blank. -/
theorem withoutBlanks_encodeChars (bytes : List UInt8) :
    Text.withoutBlanks (encodeChars bytes) = encodeChars bytes := by
  refine List.filter_eq_self.mpr fun c hc => ?_
  obtain ⟨b, hb, rfl⟩ := List.mem_map.mp hc
  rw [(char_of_mem_encode hb).1]
  rfl

/-- They are the bytes of the text again. -/
theorem flatMap_encodeChars (bytes : List UInt8) :
    (encodeChars bytes).flatMap String.utf8EncodeChar = encode bytes :=
  flatMap_utf8EncodeChar (encode bytes) fun _ hb => (char_of_mem_encode hb).2

/-- **The characters of a text are read back**, though blanks are dropped before. -/
theorem decodeChars_encodeChars (bytes : List UInt8) :
    decodeChars (Text.withoutBlanks (encodeChars bytes)) = .ok bytes := by
  rw [withoutBlanks_encodeChars, decodeChars, flatMap_encodeChars, decode_encode]

end Base64

/-- **A model that loads what a value of its kind is persisted as gets the value.** -/
theorem ModelValue.load_content (v : ModelValue) : v.kind.load v.content = .ok v := by
  cases v with
  | text s => rfl
  | bytes bs =>
    simp only [ModelValue.kind, ModelValue.content, ModelKind.load, String.toList_ofList,
      Base64.decodeChars_encodeChars]

end Folio
