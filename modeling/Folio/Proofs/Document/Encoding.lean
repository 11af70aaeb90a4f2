/-
# What base64 stands for which bytes

The standard says what the base64 of a row of bytes is: their bits, cut into groups of six, are
written as symbols of an alphabet; the bits that are missing in the last group are zero, and the
text is filled up with `=` to a multiple of four (`Base64.IsStandard`).  So bytes have one text
only, and it is what `Base64.encode` writes.

`Base64.decode` reads this text and no other one (`Base64.decodeChars_eq_ok_iff`): each group that
it accepts is the group that is written for the bytes which it gives.  A model of bytes therefore
loads exactly what bytes are persisted as, with blanks anywhere, and on everything else it stays as
it is.
-/
import Folio.Proofs.Document.RoundTrip
import Folio.Host.Begin
import Mathlib.Data.List.Induction

namespace Folio

namespace Base64

/-! ## 1. The standard -/

/-- The symbols, each at the place of its six bits. -/
def alphabet : List Char :=
  "ABCDEFGHIJKLMNOPQRSTUVWXYZabcdefghijklmnopqrstuvwxyz0123456789+/".toList

/-- The number that digits stand for, the highest first. -/
def number (base : Nat) (digits : List Nat) : Nat := digits.foldl (fun n d => n * base + d) 0

/-- **A text is the base64 of bytes, as the standard has it.**  Its symbols hold the bits of the
bytes, and after them as many zeros as it takes to fill up the last symbol. -/
def IsStandard (bytes : List UInt8) (text : List Char) : Prop :=
  ∃ (digits : List Nat) (unused fill : Nat),
    (∀ d ∈ digits, d < 64) ∧
    6 * digits.length = 8 * bytes.length + unused ∧ unused < 6 ∧
    number 64 digits = number 256 (bytes.map (·.toNat)) <<< unused ∧
    (digits.length + fill) % 4 = 0 ∧ fill < 4 ∧
    text = digits.map (alphabet.getD · '=') ++ List.replicate fill '='

theorem number_concat (base : Nat) (digits : List Nat) (d : Nat) :
    number base (digits ++ [d]) = number base digits * base + d := by
  simp [number]

/-- Digits are told by their number and by how many they are. -/
theorem number_injective {base : Nat} {ds es : List Nat} (length : ds.length = es.length)
    (small : ∀ d ∈ ds, d < base) (small' : ∀ e ∈ es, e < base)
    (same : number base ds = number base es) : ds = es := by
  induction ds using List.reverseRecOn generalizing es with
  | nil => exact (List.length_eq_zero_iff.mp length.symm).symm
  | append_singleton ds d ih =>
    rcases List.eq_nil_or_concat es with rfl | ⟨es, e, rfl⟩
    · simp at length
    · rw [List.concat_eq_append] at *
      have hd : d < base := small d (by simp)
      have he : e < base := small' e (by simp)
      have positive : 0 < base := Nat.lt_of_le_of_lt (Nat.zero_le d) hd
      rw [number_concat, number_concat] at same
      have last : d = e := by
        have mods := congrArg (· % base) same
        simpa [Nat.mod_eq_of_lt hd, Nat.mod_eq_of_lt he] using mods
      subst last
      have front : number base ds = number base es :=
        Nat.eq_of_mul_eq_mul_right positive (Nat.add_right_cancel same)
      rw [ih (by simpa using length) (fun x hx => small x (List.mem_append_left _ hx))
        (fun x hx => small' x (List.mem_append_left _ hx)) front]

/-- **Bytes have one text only.** -/
theorem IsStandard.unique {bytes : List UInt8} {text text' : List Char}
    (h : IsStandard bytes text) (h' : IsStandard bytes text') : text = text' := by
  obtain ⟨ds, u, f, small, length, hu, value, total, hf, rfl⟩ := h
  obtain ⟨es, u', f', small', length', hu', value', total', hf', rfl⟩ := h'
  obtain rfl : u = u' := by omega
  have digits : ds = es := number_injective (by omega) small small' (value.trans value'.symm)
  subst digits
  obtain rfl : f = f' := by omega
  rfl

/-- A symbol is the character of the alphabet at its place. -/
theorem char_symbol {n : Nat} (h : n < 64) :
    Char.ofNat (symbol n).toNat = alphabet.getD n '=' := by
  have all : ∀ m : Fin 64, Char.ofNat (symbol m.val).toNat = alphabet.getD m.val '=' := by
    decide +kernel
  exact all ⟨n, h⟩

/-- The digits of a row of bytes, read on from a number that stands before them, and the text that
is written for them. -/
theorem exists_digits : (bytes : List UInt8) →
    ∃ (digits : List Nat) (unused fill : Nat),
      (∀ d ∈ digits, d < 64) ∧
      6 * digits.length = 8 * bytes.length + unused ∧ unused < 6 ∧
      (∀ before : Nat, digits.foldl (fun n d => n * 64 + d) before =
        (bytes.map (·.toNat)).foldl (fun n d => n * 256 + d) before <<< unused) ∧
      (digits.length + fill) % 4 = 0 ∧ fill < 4 ∧
      encodeChars bytes = digits.map (alphabet.getD · '=') ++ List.replicate fill '='
  | [] => ⟨[], 0, 0, by simp, rfl, by omega, fun _ => rfl, rfl, by omega, rfl⟩
  | [a] => by
    have ha : a.toNat < 256 := a.toNat_lt
    have h1 : a.toNat / 4 < 64 := by omega
    have h2 : a.toNat % 4 * 16 < 64 := by omega
    refine ⟨[a.toNat / 4, a.toNat % 4 * 16], 4, 2, by simp [h1, h2], rfl, by omega,
      fun before => ?_, by simp, by omega, ?_⟩
    · simp only [List.foldl_cons, List.foldl_nil, List.map_cons, List.map_nil, Nat.shiftLeft_eq]
      omega
    · simp only [encodeChars, encode, List.map_cons, char_symbol h1, char_symbol h2]
      rfl
  | [a, b] => by
    have ha : a.toNat < 256 := a.toNat_lt
    have hb : b.toNat < 256 := b.toNat_lt
    have h1 : a.toNat / 4 < 64 := by omega
    have h2 : a.toNat % 4 * 16 + b.toNat / 16 < 64 := by omega
    have h3 : b.toNat % 16 * 4 < 64 := by omega
    refine ⟨[a.toNat / 4, a.toNat % 4 * 16 + b.toNat / 16, b.toNat % 16 * 4], 2, 1,
      by simp [h1, h2, h3], rfl, by omega, fun before => ?_, by simp, by omega, ?_⟩
    · simp only [List.foldl_cons, List.foldl_nil, List.map_cons, List.map_nil, Nat.shiftLeft_eq]
      omega
    · simp only [encodeChars, encode, List.map_cons, char_symbol h1, char_symbol h2, char_symbol h3]
      rfl
  | a :: b :: c :: rest => by
    have ha : a.toNat < 256 := a.toNat_lt
    have hb : b.toNat < 256 := b.toNat_lt
    have hc : c.toNat < 256 := c.toNat_lt
    have h1 : a.toNat / 4 < 64 := by omega
    have h2 : a.toNat % 4 * 16 + b.toNat / 16 < 64 := by omega
    have h3 : b.toNat % 16 * 4 + c.toNat / 64 < 64 := by omega
    have h4 : c.toNat % 64 < 64 := by omega
    obtain ⟨digits, unused, fill, small, length, hu, value, total, hf, text⟩ := exists_digits rest
    refine ⟨a.toNat / 4 :: (a.toNat % 4 * 16 + b.toNat / 16) ::
      (b.toNat % 16 * 4 + c.toNat / 64) :: (c.toNat % 64) :: digits, unused, fill, ?_, ?_, hu,
      fun before => ?_, ?_, hf, ?_⟩
    · simp only [List.forall_mem_cons]
      exact ⟨h1, h2, h3, h4, small⟩
    · simp only [List.length_cons]
      omega
    · -- four digits carry as much as three bytes
      have group : (((before * 64 + a.toNat / 4) * 64 + (a.toNat % 4 * 16 + b.toNat / 16)) * 64 +
          (b.toNat % 16 * 4 + c.toNat / 64)) * 64 + c.toNat % 64 =
            ((before * 256 + a.toNat) * 256 + b.toNat) * 256 + c.toNat := by omega
      simp only [List.foldl_cons, List.map_cons, group, value]
    · simp only [List.length_cons]
      omega
    · simp only [encodeChars] at text
      simp only [encodeChars, encode, List.map_cons, char_symbol h1, char_symbol h2, char_symbol h3,
        char_symbol h4, text, List.cons_append]

/-- **What is written for bytes is what the standard says**, and nothing else is. -/
theorem isStandard_iff {bytes : List UInt8} {text : List Char} :
    IsStandard bytes text ↔ text = encodeChars bytes := by
  have standard : IsStandard bytes (encodeChars bytes) := by
    obtain ⟨digits, unused, fill, small, length, hu, value, rest⟩ := exists_digits bytes
    exact ⟨digits, unused, fill, small, length, hu, value 0, rest⟩
  exact ⟨fun h => h.unique standard, fun h => h ▸ standard⟩

/-! ## 2. Nothing else is read -/

/-- What succeeds step by step has succeeded in the first step. -/
theorem exists_ok_of_bind {ε α β : Type} {x : Except ε α} {f : α → Except ε β} {b : β}
    (h : x >>= f = .ok b) : ∃ a, x = .ok a ∧ f a = .ok b := by
  cases x with
  | error e => cases h
  | ok a => exact ⟨a, rfl, h⟩

/-- Six bits are the value of their symbol only. -/
theorem symbol_of_value? {b : UInt8} {n : Nat} (h : value? b = some n) :
    n < 64 ∧ b = symbol n := by
  have all : ∀ m : Fin 256, ∀ v ∈ value? (UInt8.ofNat m.val),
      v < 64 ∧ UInt8.ofNat m.val = symbol v := by decide +kernel
  have here := all ⟨b.toNat, b.toNat_lt⟩ n
  rw [UInt8.ofNat_toNat] at here
  exact here h

theorem symbol_of_valueAt {place n : Nat} {b : UInt8} (h : valueAt place b = .ok n) :
    n < 64 ∧ b = symbol n := by
  unfold valueAt at h
  split at h
  · next v hv =>
    cases h
    exact symbol_of_value? hv
  · cases h

/-- **The group of three bytes** is that of the four values that they are joined from. -/
theorem encode_joinFour {a b c d : Nat} (ha : a < 64) (hb : b < 64) (hc : c < 64) (hd : d < 64)
    (rest : List UInt8) :
    encode (joinFour a b c d ++ rest) =
      symbol a :: symbol b :: symbol c :: symbol d :: encode rest := by
  have first : (a * 4 + b / 16) % 256 = a * 4 + b / 16 := Nat.mod_eq_of_lt (by omega)
  have second : (b % 16 * 16 + c / 4) % 256 = b % 16 * 16 + c / 4 := Nat.mod_eq_of_lt (by omega)
  have third : (c % 4 * 64 + d) % 256 = c % 4 * 64 + d := Nat.mod_eq_of_lt (by omega)
  have va : (a * 4 + b / 16) / 4 = a := by omega
  have vb : (a * 4 + b / 16) % 4 * 16 + (b % 16 * 16 + c / 4) / 16 = b := by omega
  have vc : (b % 16 * 16 + c / 4) % 16 * 4 + (c % 4 * 64 + d) / 64 = c := by omega
  have vd : (c % 4 * 64 + d) % 64 = d := by omega
  simp only [joinFour, List.cons_append, List.nil_append, encode, UInt8.toNat_ofNat', Nat.reducePow,
    first, second, third, va, vb, vc, vd]

/-- What stands in the last group: symbols, and after two of them at least, padding. -/
theorem eq_of_lastSymbols {start : Nat} : ∀ {bytes : List UInt8} {before : Nat}
    {symbols : List (Nat × UInt8)}, lastSymbols start before bytes = .ok symbols →
    (∀ p ∈ symbols, p.1 < 64 ∧ p.2 = symbol p.1) ∧
      ∃ fill, bytes = symbols.map (·.2) ++ List.replicate fill padding
  | [], before, symbols, h => by
    cases h
    exact ⟨by simp, 0, rfl⟩
  | b :: rest, before, symbols, h => by
    rw [lastSymbols] at h
    split at h
    · next hb =>
      split at h
      · cases h
      · split at h
        · next filled =>
          cases h
          refine ⟨by simp, rest.length + 1, ?_⟩
          have same : rest = List.replicate rest.length padding := by
            refine List.eq_replicate_of_mem fun c hc => ?_
            exact beq_iff_eq.mp (List.all_eq_true.mp filled c hc)
          rw [List.map_nil, List.nil_append, List.replicate_succ, ← same, hb]
        · cases h
    · obtain ⟨v, hv, h⟩ := exists_ok_of_bind h
      obtain ⟨vs, hvs, h⟩ := exists_ok_of_bind h
      cases h
      obtain ⟨small, fill, split⟩ := eq_of_lastSymbols hvs
      have here := symbol_of_valueAt hv
      refine ⟨?_, fill, by rw [split]; rfl⟩
      rw [List.forall_mem_cons]
      exact ⟨here, small⟩

/-- The last group of two, three or four symbols is what is written for its bytes. -/
theorem eq_encode_of_joinLast {start : Nat} {symbols : List (Nat × UInt8)} {data : List UInt8}
    (small : ∀ p ∈ symbols, p.1 < 64 ∧ p.2 = symbol p.1)
    (h : joinLast start symbols = .ok data) :
    2 ≤ symbols.length ∧
      symbols.map (·.2) ++ List.replicate (4 - symbols.length) padding = encode data := by
  unfold joinLast at h
  split at h
  · next a _ b _ =>
    simp only [List.forall_mem_cons] at small
    obtain ⟨⟨ha, rfl⟩, ⟨hb, rfl⟩, -⟩ := small
    split at h
    · next unused =>
      cases h
      have byte : (a * 4 + b / 16) % 256 = a * 4 + b / 16 := Nat.mod_eq_of_lt (by omega)
      have va : (a * 4 + b / 16) / 4 = a := by omega
      have vb : (a * 4 + b / 16) % 4 * 16 = b := by omega
      refine ⟨Nat.le_refl 2, ?_⟩
      simp only [encode, UInt8.toNat_ofNat', Nat.reducePow, byte, va, vb]
      rfl
    · cases h
  · next a _ b _ c _ =>
    simp only [List.forall_mem_cons] at small
    obtain ⟨⟨ha, rfl⟩, ⟨hb, rfl⟩, ⟨hc, rfl⟩, -⟩ := small
    split at h
    · next unused =>
      cases h
      have first : (a * 4 + b / 16) % 256 = a * 4 + b / 16 := Nat.mod_eq_of_lt (by omega)
      have second : (b % 16 * 16 + c / 4) % 256 = b % 16 * 16 + c / 4 :=
        Nat.mod_eq_of_lt (by omega)
      have va : (a * 4 + b / 16) / 4 = a := by omega
      have vb : (a * 4 + b / 16) % 4 * 16 + (b % 16 * 16 + c / 4) / 16 = b := by omega
      have vc : (b % 16 * 16 + c / 4) % 16 * 4 = c := by omega
      refine ⟨by simp, ?_⟩
      simp only [encode, UInt8.toNat_ofNat', Nat.reducePow, first, second, va, vb, vc]
      rfl
    · cases h
  · next a _ b _ c _ d _ =>
    simp only [List.forall_mem_cons] at small
    obtain ⟨⟨ha, rfl⟩, ⟨hb, rfl⟩, ⟨hc, rfl⟩, ⟨hd, rfl⟩, -⟩ := small
    cases h
    refine ⟨by simp, ?_⟩
    have group := encode_joinFour ha hb hc hd []
    rw [List.append_nil] at group
    rw [group]
    rfl
  · cases h

/-- **The last group that is accepted** is the one that is written for its bytes. -/
theorem eq_encode_of_decodeLast {start : Nat} {bytes data : List UInt8}
    (h : decodeLast start bytes = .ok data) : bytes = encode data := by
  obtain ⟨symbols, read, h⟩ := exists_ok_of_bind h
  split at h
  · cases h
  · split at h
    · cases h
    · next whole =>
      obtain ⟨small, fill, split⟩ := eq_of_lastSymbols read
      obtain ⟨-, written⟩ := eq_encode_of_joinLast small h
      have length : bytes.length = 4 := not_not.mp whole
      have filled : fill = 4 - symbols.length := by
        rw [split] at length
        simp only [List.length_append, List.length_map, List.length_replicate] at length
        omega
      rw [split, filled, written]

/-- **A text that is accepted is the one that is written for its bytes**, group by group. -/
theorem eq_encode_of_decodeFrom {start : Nat} {bytes data : List UInt8}
    (h : decodeFrom start bytes = .ok data) : bytes = encode data := by
  fun_induction decodeFrom start bytes generalizing data with
  | case1 =>
    cases h
    rfl
  | case2 start a b c d e rest ih =>
    obtain ⟨va, ha, h⟩ := exists_ok_of_bind h
    obtain ⟨vb, hb, h⟩ := exists_ok_of_bind h
    obtain ⟨vc, hc, h⟩ := exists_ok_of_bind h
    obtain ⟨vd, hd, h⟩ := exists_ok_of_bind h
    obtain ⟨others, rest_read, h⟩ := exists_ok_of_bind h
    cases h
    obtain ⟨la, rfl⟩ := symbol_of_valueAt ha
    obtain ⟨lb, rfl⟩ := symbol_of_valueAt hb
    obtain ⟨lc, rfl⟩ := symbol_of_valueAt hc
    obtain ⟨ld, rfl⟩ := symbol_of_valueAt hd
    rw [encode_joinFour la lb lc ld, ih rest_read]
  | case3 => exact eq_encode_of_decodeLast h

theorem eq_encode_of_decode {bytes data : List UInt8} (h : decode bytes = .ok data) :
    bytes = encode data := by
  unfold decode at h
  split at h
  · split at h
    · cases h
    · exact eq_encode_of_decodeFrom h
  · exact eq_encode_of_decodeFrom h

/-! ## 3. Characters -/

/-- Characters are told by the bytes that they are written as. -/
theorem eq_of_flatMap_utf8EncodeChar {cs ds : List Char}
    (h : cs.flatMap String.utf8EncodeChar = ds.flatMap String.utf8EncodeChar) : cs = ds := by
  refine String.ofList_injective (String.toByteArray_inj.mp ?_)
  rw [String.toByteArray_ofList, String.toByteArray_ofList]
  exact congrArg List.toByteArray h

/-- **Characters are read as bytes exactly if they are what is written for these.** -/
theorem decodeChars_eq_ok_iff {cs : List Char} {bytes : List UInt8} :
    decodeChars cs = .ok bytes ↔ cs = encodeChars bytes := by
  constructor
  · intro h
    have read : cs.flatMap String.utf8EncodeChar = encode bytes := eq_encode_of_decode h
    exact eq_of_flatMap_utf8EncodeChar (read.trans (flatMap_encodeChars bytes).symm)
  · rintro rfl
    have back := decodeChars_encodeChars bytes
    rwa [withoutBlanks_encodeChars] at back

end Base64

/-! ## 4. Models of bytes -/

namespace Text

/-- **Characters with blanks inserted anywhere among them.** -/
inductive SpreadOut : List Char → List Char → Prop where
  | nil : SpreadOut [] []
  | char (c : Char) {cs ds : List Char} (rest : SpreadOut cs ds) : SpreadOut (c :: cs) (c :: ds)
  | blank {b : Char} (isBlank : isBlank b = true) {cs ds : List Char} (rest : SpreadOut cs ds) :
    SpreadOut cs (b :: ds)

/-- Dropping every blank drops those that were inserted. -/
theorem SpreadOut.withoutBlanks_eq {cs ds : List Char} (h : SpreadOut cs ds) :
    withoutBlanks ds = withoutBlanks cs := by
  induction h with
  | nil => rfl
  | char c _ ih =>
    unfold withoutBlanks at ih ⊢
    rw [List.filter_cons, List.filter_cons, ih]
  | blank isBlank _ ih => simpa [withoutBlanks, isBlank] using ih

end Text

namespace Model

/-- A model of bytes loads a text exactly if it is the base64 of bytes, up to blanks. -/
theorem load_base64_eq_ok_iff {m m' : Model} (holds : m.kind = .bytes) (s : String) :
    m.load (.base64 s) = .ok m' ↔
      ∃ bytes, Base64.IsStandard bytes (Text.withoutBlanks s.toList) ∧
        m' = { m with value := .bytes bytes } := by
  simp only [Base64.isStandard_iff, ← Base64.decodeChars_eq_ok_iff, load, holds, ModelKind.load]
  cases Base64.decodeChars (Text.withoutBlanks s.toList) with
  | ok data => simp [Except.map, eq_comm]
  | error cause => simp [Except.map]

/-- **Loading base64.**  A model of bytes takes a text exactly if the text is, up to blanks, the
base64 of bytes.  It then holds these bytes, has the flags that it had, and is persisted as the text
without its blanks.  Every other text is refused as one that cannot be decoded, and a context that
is told to load it stays as it is, like everything else.  So what bytes are persisted as gives the
bytes back, wherever blanks are inserted. -/
theorem load_base64 (m : Model) (holds : m.kind = .bytes) (s : String) :
    ((∃ m', m.load (.base64 s) = .ok m') ↔
      ∃ bytes, Base64.IsStandard bytes (Text.withoutBlanks s.toList)) ∧
    (∀ bytes, Base64.IsStandard bytes (Text.withoutBlanks s.toList) →
      m.load (.base64 s) = .ok { m with value := .bytes bytes } ∧
      { m with value := .bytes bytes }.content =
        .base64 (String.ofList (Text.withoutBlanks s.toList))) ∧
    ((¬ ∃ bytes, Base64.IsStandard bytes (Text.withoutBlanks s.toList)) →
      ∃ cause, m.load (.base64 s) = .error (.decode cause) ∧
        ∀ (w : Host.World) (c : ContextId) (edit : Bool), (w.session.context c).model = m →
          w.loadContent c (.base64 s) edit = (w, .inl (.failed (.model (.decode cause))))) ∧
    ∀ bytes t, (ModelValue.bytes bytes).content = .base64 t → Text.SpreadOut t.toList s.toList →
      m.load (.base64 s) = .ok { m with value := .bytes bytes } := by
  have loads : ∀ bytes, Base64.IsStandard bytes (Text.withoutBlanks s.toList) →
      m.load (.base64 s) = .ok { m with value := .bytes bytes } := fun bytes standard =>
    (load_base64_eq_ok_iff holds s).mpr ⟨bytes, standard, rfl⟩
  refine ⟨⟨?_, ?_⟩, fun bytes standard => ⟨loads bytes standard, ?_⟩, fun none => ?_,
    fun bytes t persisted spread => loads bytes ?_⟩
  · rintro ⟨m', loaded⟩
    obtain ⟨bytes, standard, -⟩ := (load_base64_eq_ok_iff holds s).mp loaded
    exact ⟨bytes, standard⟩
  · rintro ⟨bytes, standard⟩
    exact ⟨_, loads bytes standard⟩
  · rw [Base64.isStandard_iff.mp standard]
    rfl
  · cases read : Base64.decodeChars (Text.withoutBlanks s.toList) with
    | ok data =>
      exact absurd ⟨data, Base64.isStandard_iff.mpr (Base64.decodeChars_eq_ok_iff.mp read)⟩ none
    | error cause =>
      have refused : m.load (.base64 s) = .error (.decode cause) := by
        simp only [load, holds, ModelKind.load, read, Except.map]
      refine ⟨cause, refused, fun w c edit here => ?_⟩
      simp only [Host.World.loadContent, here, refused]
      rfl
  · obtain rfl : String.ofList (Base64.encodeChars bytes) = t := Content.base64.inj persisted
    rw [Base64.isStandard_iff, spread.withoutBlanks_eq, String.toList_ofList,
      Base64.withoutBlanks_encodeChars]

/-- A payload that is broken over two lines is loaded, while the same payload with a bit set where
none is used is refused. -/
theorem load_base64_wrapped :
    let m := create .bytes
    let hello : List UInt8 := [0x68, 0x65, 0x6C, 0x6C, 0x6F]
    m.kind = .bytes ∧
    m.load (.base64 "aGVs\nbG8=") = .ok { m with value := .bytes hello } ∧
    (¬ ∃ bytes, Base64.IsStandard bytes (Text.withoutBlanks "aGVsbG9=".toList)) ∧
    ∃ cause, m.load (.base64 "aGVsbG9=") = .error (.decode cause) := by
  intro m hello
  have holds : m.kind = .bytes := rfl
  have persisted : (ModelValue.bytes hello).content = .base64 "aGVsbG8=" :=
    congrArg Content.base64 (by decide +kernel)
  have spread : Text.SpreadOut "aGVsbG8=".toList "aGVs\nbG8=".toList := by
    refine .char _ (.char _ (.char _ (.char _ (.blank ?_ (.char _ (.char _ (.char _ (.char _
      .nil))))))))
    decide
  have none : ¬ ∃ bytes, Base64.IsStandard bytes (Text.withoutBlanks "aGVsbG9=".toList) := by
    rintro ⟨bytes, standard⟩
    have read := Base64.decodeChars_eq_ok_iff.mpr (Base64.isStandard_iff.mp standard)
    have refused : (Base64.decodeChars (Text.withoutBlanks "aGVsbG9=".toList)).isOk = false := by
      decide +kernel
    rw [read] at refused
    cases refused
  obtain ⟨-, -, refuses, -⟩ := load_base64 m holds "aGVsbG9="
  obtain ⟨-, -, -, wrapped⟩ := load_base64 m holds "aGVs\nbG8="
  obtain ⟨cause, refused, -⟩ := refuses none
  exact ⟨holds, wrapped hello _ persisted spread, none, cause, refused⟩

end Model

end Folio
