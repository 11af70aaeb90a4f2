/-
# A written value is read back

The compact form of a value is the row of its tokens; from the row the tree of the value is built
again, and the tree means the value.

The numbers of the value must be integers for the first step, since only these are written as
their digits.  For the last step they must fit sixty-four bits, the members of every object must
be sorted by key without repetition, and no more brackets may be open at a time than the reader
admits.
-/
import Folio.Proofs.Json.Tokens

namespace Folio.Json

/-! ## 1. Values from the inside out -/

/-- **Induction over a value**: an array after its items, an object after its members. -/
@[elab_as_elim]
theorem induct {motive : Json → Prop} (null : motive .null) (bool : ∀ b, motive (.bool b))
    (number : ∀ n, motive (.number n)) (string : ∀ s, motive (.string s))
    (array : ∀ items, (∀ v ∈ items, motive v) → motive (.array items))
    (object : ∀ members, (∀ m ∈ members, motive m.2) → motive (.object members)) (v : Json) :
    motive v := by
  refine Json.rec (motive_1 := motive) (motive_2 := fun items => ∀ v ∈ items, motive v)
    (motive_3 := fun members => ∀ m ∈ members, motive m.2) (motive_4 := fun m => motive m.2)
    null bool number string array object ?_ ?_ ?_ ?_ ?_ v
  · simp
  · intro head rest first others
    exact List.forall_mem_cons.mpr ⟨first, others⟩
  · simp
  · intro head rest first others
    exact List.forall_mem_cons.mpr ⟨first, others⟩
  · intro key value inner
    exact inner

/-- **Every number of a value fulfils `p`**, and the keys of every object in it fulfil `q`. -/
inductive Every (p : Number → Prop) (q : List String → Prop) : Json → Prop
  | null : Every p q .null
  | bool (b : Bool) : Every p q (.bool b)
  | number {n : Number} (fulfils : p n) : Every p q (.number n)
  | string (s : String) : Every p q (.string s)
  | array {items : List Json} (inner : ∀ v ∈ items, Every p q v) : Every p q (.array items)
  | object {members : List (String × Json)} (keys : q (members.map (·.1)))
      (inner : ∀ m ∈ members, Every p q m.2) : Every p q (.object members)

/-- The number is an integer. -/
def Number.IsInteger : Number → Prop
  | .integer _ => True
  | .double _ => False

/-- The number is an integer that is kept exactly. -/
def Number.Fits : Number → Prop
  | .integer i => leastInteger ≤ i ∧ i ≤ greatestInteger
  | .double _ => False

/-- **All numbers of a value are integers.** -/
abbrev IsIntegral (v : Json) : Prop := v.Every Number.IsInteger fun _ => True

/-- **A value as it is kept**: its numbers are integers of sixty-four bits, and the members of
its objects are sorted by key. -/
abbrev IsKept (v : Json) : Prop := v.Every Number.Fits (List.Pairwise (· < ·))

theorem IsKept.integral {v : Json} (h : v.IsKept) : v.IsIntegral := by
  induction h with
  | null => exact .null
  | bool b => exact .bool b
  | @number n fits =>
    cases n with
    | integer i => exact .number trivial
    | double bits => exact fits.elim
  | string s => exact .string s
  | array _ ih => exact .array ih
  | object _ _ ih => exact .object trivial ih

mutual

/-- **How many brackets are open at a time**, at most, when a value is written. -/
def depth : Json → Nat
  | .array items => itemsDepth items + 1
  | .object members => membersDepth members + 1
  | _ => 0

/-- The same for the items of an array. -/
def itemsDepth : List Json → Nat
  | [] => 0
  | v :: rest => Nat.max (depth v) (itemsDepth rest)

/-- The same for the members of an object. -/
def membersDepth : List (String × Json) → Nat
  | [] => 0
  | (_, v) :: rest => Nat.max (depth v) (membersDepth rest)

end

theorem itemsDepth_le_iff {items : List Json} {n : Nat} :
    itemsDepth items ≤ n ↔ ∀ v ∈ items, v.depth ≤ n := by
  induction items with
  | nil => simp [itemsDepth]
  | cons v rest ih => simp [itemsDepth, ih]

theorem membersDepth_le_iff {members : List (String × Json)} {n : Nat} :
    membersDepth members ≤ n ↔ ∀ m ∈ members, m.2.depth ≤ n := by
  induction members with
  | nil => simp [membersDepth]
  | cons m rest ih => simp [membersDepth, ih]

@[simp]
theorem depth_array_le_iff {items : List Json} {n : Nat} :
    (array items).depth ≤ n + 1 ↔ ∀ v ∈ items, v.depth ≤ n := by
  rw [depth, Nat.add_le_add_iff_right, itemsDepth_le_iff]

@[simp]
theorem depth_object_le_iff {members : List (String × Json)} {n : Nat} :
    (object members).depth ≤ n + 1 ↔ ∀ m ∈ members, m.2.depth ≤ n := by
  rw [depth, Nat.add_le_add_iff_right, membersDepth_le_iff]

/-! ## 2. The tokens of a value -/

/-- A number as it is found where it is written. -/
def Number.literal (n : Number) : Literal :=
  match literal? n.text with
  | some (l, _) => l
  | none => .ofInt 0

@[simp]
theorem Number.literal_integer (i : Int) : (Number.integer i).literal = .ofInt i := by
  have ends : EndsNumber [] := fun c hc => by cases hc
  have read := literal?_ofInt i ends
  rw [List.append_nil, Literal.text_ofInt] at read
  rw [Number.literal, Number.text, read]

mutual

/-- **The tokens of a value.** -/
def tokens : Json → List Token
  | .null => [.null]
  | .bool b => [.bool b]
  | .number n => [.number n.literal]
  | .string s => [.string (some s)]
  | .array items => .openArray :: itemTokens items ++ [.closeArray]
  | .object members => .openObject :: memberTokens members ++ [.closeObject]

/-- The tokens of the items of an array. -/
def itemTokens : List Json → List Token
  | [] => []
  | [v] => tokens v
  | v :: rest => tokens v ++ .comma :: itemTokens rest

/-- The tokens of the members of an object. -/
def memberTokens : List (String × Json) → List Token
  | [] => []
  | [(k, v)] => .string (some k) :: .colon :: tokens v
  | (k, v) :: rest => .string (some k) :: .colon :: tokens v ++ .comma :: memberTokens rest

end

/-- What is written for a value is what is written for its tokens. -/
def WritesTokens (v : Json) : Prop := v.compactChars = v.tokens.flatMap Token.text

theorem compactItems_eq {items : List Json} (h : ∀ v ∈ items, v.WritesTokens) :
    compactItems items = (itemTokens items).flatMap Token.text := by
  induction items with
  | nil => rfl
  | cons v rest ih =>
    have first : v.compactChars = _ := h v List.mem_cons_self
    have others := ih fun w hw => h w (List.mem_cons_of_mem v hw)
    cases rest with
    | nil => simpa [compactItems, itemTokens] using first
    | cons w rest => simp [compactItems, itemTokens, first, others]

theorem compactMembers_eq {members : List (String × Json)}
    (h : ∀ m ∈ members, m.2.WritesTokens) :
    compactMembers members = (memberTokens members).flatMap Token.text := by
  induction members with
  | nil => rfl
  | cons m rest ih =>
    obtain ⟨k, v⟩ := m
    have first : v.compactChars = _ := h (k, v) List.mem_cons_self
    have others := ih fun m hm => h m (List.mem_cons_of_mem (k, v) hm)
    have key : (Token.string (some k)).text = quote k.toList := rfl
    cases rest with
    | nil => simp [compactMembers, memberTokens, first, key]
    | cons w rest => simp [compactMembers, memberTokens, first, others, key]

/-- **The compact form is the row of the tokens.** -/
theorem compactChars_eq {v : Json} (h : v.IsIntegral) :
    v.compactChars = v.tokens.flatMap Token.text := by
  induction h with
  | null | bool b => simp [compactChars, tokens]
  | string s => simp [compactChars, tokens, Token.text]
  | @number n integer =>
    cases n with
    | integer i => simp [compactChars, tokens, Token.text, Literal.text_ofInt, Number.text]
    | double bits => exact integer.elim
  | array _ ih => simp [compactChars, tokens, compactItems_eq ih]
  | object _ _ ih => simp [compactChars, tokens, compactMembers_eq ih]

/-- No two numbers of a row of tokens are neighbours. -/
abbrev Apart (ts : List Token) : Prop :=
  ts.IsChain fun t u => t.isNumber = true → u.isNumber = false

/-- A token that is no number keeps apart what stands on its two sides. -/
theorem apart_append_cons {before after : List Token} {t : Token} (h : t.isNumber = false)
    (left : Apart before) (right : Apart after) : Apart (before ++ t :: after) := by
  refine List.isChain_append.mpr ⟨left, List.isChain_cons.mpr ⟨?_, right⟩, ?_⟩
  · intro u _ number
    rw [h] at number
    contradiction
  · intro u _ w hw _
    obtain rfl : t = w := by simpa using hw
    exact h

theorem apart_cons {after : List Token} {t : Token} (h : t.isNumber = false)
    (right : Apart after) : Apart (t :: after) :=
  @apart_append_cons [] after t h .nil right

theorem apart_itemTokens {items : List Json} (h : ∀ v ∈ items, Apart v.tokens) :
    Apart (itemTokens items) := by
  induction items with
  | nil => exact .nil
  | cons v rest ih =>
    have first := h v List.mem_cons_self
    have others := ih fun w hw => h w (List.mem_cons_of_mem v hw)
    cases rest with
    | nil => exact first
    | cons w rest => exact apart_append_cons rfl first others

theorem apart_memberTokens {members : List (String × Json)}
    (h : ∀ m ∈ members, Apart m.2.tokens) : Apart (memberTokens members) := by
  induction members with
  | nil => exact .nil
  | cons m rest ih =>
    obtain ⟨k, v⟩ := m
    have value := h (k, v) List.mem_cons_self
    have first : Apart (.string (some k) :: .colon :: v.tokens) :=
      apart_cons rfl (apart_cons rfl value)
    have others := ih fun m hm => h m (List.mem_cons_of_mem (k, v) hm)
    cases rest with
    | nil => exact first
    | cons w rest => exact apart_append_cons rfl first others

theorem apart_tokens (v : Json) : Apart v.tokens := by
  induction v using induct with
  | null | bool b | number n | string s => exact .singleton _
  | array items ih =>
    have closed := apart_append_cons (t := .closeArray) rfl (apart_itemTokens ih) .nil
    exact apart_cons rfl closed
  | object members ih =>
    have closed := apart_append_cons (t := .closeObject) rfl (apart_memberTokens ih) .nil
    exact apart_cons rfl closed

theorem mem_itemTokens {items : List Json} {t : Token} (h : t ∈ itemTokens items) :
    t = .comma ∨ ∃ v ∈ items, t ∈ v.tokens := by
  induction items with
  | nil => cases h
  | cons v rest ih =>
    cases rest with
    | nil => exact .inr ⟨v, List.mem_cons_self, h⟩
    | cons w rest =>
      rcases List.mem_append.mp h with here | there
      · exact .inr ⟨v, List.mem_cons_self, here⟩
      rcases List.mem_cons.mp there with comma | later
      · exact .inl comma
      · exact (ih later).imp_right fun ⟨u, hu, ht⟩ => ⟨u, List.mem_cons_of_mem v hu, ht⟩

theorem mem_memberTokens {members : List (String × Json)} {t : Token}
    (h : t ∈ memberTokens members) :
    t = .comma ∨ t = .colon ∨ (∃ k, t = .string (some k)) ∨ ∃ m ∈ members, t ∈ m.2.tokens := by
  induction members with
  | nil => cases h
  | cons m rest ih =>
    obtain ⟨k, v⟩ := m
    cases rest with
    | nil =>
      simp only [memberTokens, List.mem_cons] at h
      rcases h with key | colon | value
      · exact .inr (.inr (.inl ⟨k, key⟩))
      · exact .inr (.inl colon)
      · exact .inr (.inr (.inr ⟨(k, v), List.mem_cons_self, value⟩))
    | cons w rest =>
      simp only [memberTokens, List.cons_append, List.mem_cons, List.mem_append] at h
      rcases h with key | colon | value | comma | later
      · exact .inr (.inr (.inl ⟨k, key⟩))
      · exact .inr (.inl colon)
      · exact .inr (.inr (.inr ⟨(k, v), List.mem_cons_self, value⟩))
      · exact .inl comma
      · rcases ih later with comma | colon | key | ⟨n, hn, value⟩
        · exact .inl comma
        · exact .inr (.inl colon)
        · exact .inr (.inr (.inl key))
        · exact .inr (.inr (.inr ⟨n, List.mem_cons_of_mem _ hn, value⟩))

theorem isPlain_of_mem_tokens {v : Json} (h : v.IsIntegral) :
    ∀ t ∈ v.tokens, t.IsPlain := by
  induction h with
  | null | bool b | string s => simp [tokens, Token.IsPlain]
  | @number n integer =>
    cases n with
    | integer i => simp [tokens, Token.IsPlain]
    | double bits => exact integer.elim
  | array _ ih =>
    intro t ht
    simp only [tokens, List.cons_append, List.mem_cons, List.mem_append] at ht
    rcases ht with rfl | inside | rfl | no
    · trivial
    · rcases mem_itemTokens inside with rfl | ⟨v, hv, ht⟩
      · trivial
      · exact ih v hv t ht
    · trivial
    · cases no
  | object _ _ ih =>
    intro t ht
    simp only [tokens, List.cons_append, List.mem_cons, List.mem_append] at ht
    rcases ht with rfl | inside | rfl | no
    · trivial
    · rcases mem_memberTokens inside with rfl | rfl | ⟨k, rfl⟩ | ⟨m, hm, ht⟩
      · trivial
      · trivial
      · exact rfl
      · exact ih m hm t ht
    · trivial
    · cases no

/-- **The tokens of a value are found in every text that lays them out.** -/
theorem LaysOut.readAll_tokens {v : Json} {cs : List Char} (h : LaysOut cs v.tokens)
    (integral : v.IsIntegral) : Token.readAll cs = some v.tokens :=
  h.readAll (isPlain_of_mem_tokens integral) (apart_tokens v)

/-- The compact form lays out the tokens without any blanks. -/
theorem laysOut_compactChars {v : Json} (h : v.IsIntegral) : LaysOut v.compactChars v.tokens := by
  rw [compactChars_eq h]
  exact .flatMap_text v.tokens

/-! ## 3. The tree of a value -/

mutual

/-- **The tree of a value.** -/
def term : Json → Term
  | .null => .null
  | .bool b => .bool b
  | .number n => .number n.literal
  | .string s => .string (some s)
  | .array items => .array (itemTerms items)
  | .object members => .object (memberTerms members)

/-- The trees of the items of an array. -/
def itemTerms : List Json → List Term
  | [] => []
  | v :: rest => term v :: itemTerms rest

/-- The trees of the members of an object, with their keys. -/
def memberTerms : List (String × Json) → List (Option String × Term)
  | [] => []
  | (k, v) :: rest => (some k, term v) :: memberTerms rest

end

/-- What has been read after a row of tokens more. -/
def Stage.after (stage : Stage) (ts : List Token) : Option Stage := ts.foldlM Stage.next stage

theorem Stage.after_cons (stage : Stage) (t : Token) (ts : List Token) :
    stage.after (t :: ts) = (stage.next t).bind (·.after ts) := rfl

theorem Stage.after_append (stage : Stage) (ts us : List Token) :
    stage.after (ts ++ us) = (stage.after ts).bind (·.after us) :=
  List.foldlM_append

/-- The tokens of a value, wherever a value may come, are read as its tree. -/
def BuildsTerm (v : Json) : Prop :=
  ∀ frames, (Stage.value frames).after v.tokens = some (.complete frames v.term)

/-- The items of an array begin with the first of them. -/
theorem itemTokens_cons (v : Json) (rest : List Json) :
    ∃ ts, itemTokens (v :: rest) = v.tokens ++ ts := by
  cases rest with
  | nil => exact ⟨[], (List.append_nil _).symm⟩
  | cons w rest => exact ⟨.comma :: itemTokens (w :: rest), rfl⟩

/-- A value may come where an array has just been opened: its first token does not close it. -/
theorem after_item (v : Json) (ts : List Token) (frames : List Frame) :
    (Stage.item frames).after (v.tokens ++ ts) =
      (Stage.value (.array [] :: frames)).after (v.tokens ++ ts) := by
  cases v <;> rfl

theorem after_itemTokens {v : Json} {rest : List Json} (h : ∀ w ∈ v :: rest, w.BuildsTerm)
    (done : List Term) (frames : List Frame) :
    (Stage.value (.array done :: frames)).after (itemTokens (v :: rest) ++ [.closeArray]) =
      some (.complete frames (.array (done.reverse ++ itemTerms (v :: rest)))) := by
  induction rest generalizing v done with
  | nil =>
    rw [itemTokens, Stage.after_append, h v List.mem_cons_self]
    simp [Stage.after, Stage.next, itemTerms]
  | cons w rest ih =>
    have others := ih (fun u hu => h u (List.mem_cons_of_mem v hu)) (v.term :: done)
    rw [itemTokens, List.append_assoc, Stage.after_append, h v List.mem_cons_self]
    · rw [Option.bind_some, List.cons_append, Stage.after_cons, Stage.next, Option.bind_some,
        others]
      simp [itemTerms]
    · simp

theorem after_member {v : Json} (h : v.BuildsTerm) (k : String)
    (done : List (Option String × Term)) (first : Bool) (frames : List Frame) (ts : List Token) :
    (Stage.key frames done first).after (.string (some k) :: .colon :: v.tokens ++ ts) =
      (Stage.complete (.object done (some k) :: frames) v.term).after ts := by
  rw [List.cons_append, List.cons_append, Stage.after_cons, Stage.next, Option.bind_some,
    Stage.after_cons, Stage.next, Option.bind_some, Stage.after_append, h, Option.bind_some]

theorem after_memberTokens {m : String × Json} {rest : List (String × Json)}
    (h : ∀ n ∈ m :: rest, n.2.BuildsTerm) (done : List (Option String × Term)) (first : Bool)
    (frames : List Frame) :
    (Stage.key frames done first).after (memberTokens (m :: rest) ++ [.closeObject]) =
      some (.complete frames (.object (done.reverse ++ memberTerms (m :: rest)))) := by
  induction rest generalizing m done first with
  | nil =>
    rw [memberTokens, after_member (h m List.mem_cons_self)]
    simp [Stage.after, Stage.next, memberTerms]
  | cons n rest ih =>
    have others :=
      ih (fun u hu => h u (List.mem_cons_of_mem m hu)) ((some m.1, m.2.term) :: done) false
    rw [memberTokens, List.append_assoc, after_member (h m List.mem_cons_self),
      List.cons_append, Stage.after_cons, Stage.next, Option.bind_some, others]
    · simp [memberTerms]
    · simp

/-- **The tree of a value is built from its tokens.** -/
theorem buildsTerm (v : Json) : v.BuildsTerm := by
  induction v using induct with
  | null | bool b | number n | string s => intro frames; rfl
  | array items ih =>
    intro frames
    cases items with
    | nil => rfl
    | cons v rest =>
      obtain ⟨ts, front⟩ := itemTokens_cons v rest
      have inside := after_itemTokens ih [] frames
      rwa [front, List.append_assoc, ← after_item, ← List.append_assoc, ← front] at inside
  | object members ih =>
    intro frames
    cases members with
    | nil => rfl
    | cons m rest => exact after_memberTokens ih [] true frames

/-- **The tree of a value is found in every text that lays out its tokens.** -/
theorem LaysOut.term_read? {v : Json} {cs : List Char} (h : LaysOut cs v.tokens)
    (integral : v.IsIntegral) : Term.read? (String.ofList cs) = some v.term := by
  have built : v.tokens.foldlM Stage.next (.value []) = some (.complete [] v.term) :=
    buildsTerm v []
  rw [Term.read?, String.toList_ofList, h.readAll_tokens integral, Option.bind_eq_bind,
    Option.bind_some, Term.ofTokens?, built]
  rfl

/-- The tree of a value is found in its compact form. -/
theorem term_read?_compact {v : Json} (h : v.IsIntegral) : Term.read? v.compact = some v.term :=
  (laysOut_compactChars h).term_read? h

/-! ## 4. What the tree means -/

theorem le_ofDigitChars (word : Nat) (ds : List Char) : word ≤ Nat.ofDigitChars 10 ds word := by
  induction ds generalizing word with
  | nil => exact Nat.le_refl word
  | cons c ds ih =>
    have longer := ih (10 * word + (c.toNat - '0'.toNat))
    rw [Nat.ofDigitChars_cons]
    omega

theorem absorb_of_le {ds : List Char} {word : Nat}
    (h : Nat.ofDigitChars 10 ds word ≤ greatestWord) :
    absorb word ds = (Nat.ofDigitChars 10 ds word, []) := by
  induction ds generalizing word with
  | nil => rfl
  | cons c ds ih =>
    have same : word * 10 + digitValue c = 10 * word + (c.toNat - '0'.toNat) := by
      rw [digitValue, Nat.mul_comm]; rfl
    rw [Nat.ofDigitChars_cons] at h ⊢
    have fits := Nat.le_trans (le_ofDigitChars _ ds) h
    rw [absorb, same, if_pos fits, ih h]

/-- **A number that fits is what its digits mean.** -/
theorem value?_literal {n : Number} (h : n.Fits) : n.literal.value? = some n := by
  cases n with
  | double bits => exact h.elim
  | integer i =>
    have fits : leastInteger ≤ i ∧ i ≤ greatestInteger := h
    simp only [leastInteger, greatestInteger] at fits
    have word : absorb 0 (Decimal.digits i.natAbs) = (i.natAbs, []) := by
      have value : Nat.ofDigitChars 10 (Decimal.digits i.natAbs) 0 = i.natAbs :=
        Nat.ofDigitChars_toDigits (by decide) (by decide)
      rw [absorb_of_le (by rw [value, greatestWord]; omega), value]
    rw [Number.literal_integer]
    by_cases negative : i < 0
    · have positive : 0 < i.natAbs ∧ leastInteger ≤ i := ⟨by omega, h.1⟩
      have back : -(i.natAbs : Int) = i := by omega
      simp only [Literal.value?, Literal.ofInt, word, negative, decide_true, Bool.not_true,
        Bool.false_eq_true, if_false, back]
      rw [if_pos positive]
    · have back : (i.natAbs : Int) = i := by omega
      simp [Literal.value?, Literal.ofInt, word, negative, back]

/-- Members that stand in order are put behind each other. -/
theorem putMember_of_forall_lt {key : String} {value : Json} {sorted : List (String × Json)}
    (h : ∀ m ∈ sorted, m.1 < key) : putMember key value sorted = sorted ++ [(key, value)] := by
  induction sorted with
  | nil => rfl
  | cons m sorted ih =>
    obtain ⟨k, v⟩ := m
    have smaller : k < key := h (k, v) List.mem_cons_self
    have others := ih fun m hm => h m (List.mem_cons_of_mem (k, v) hm)
    have different : key ≠ k := by
      rintro rfl
      exact String.lt_irrefl key smaller
    rw [putMember, if_neg (String.lt_asymm smaller), if_neg different, others]
    rfl

theorem foldl_putMember {members : List (String × Json)} (front : List (String × Json))
    (h : ((front ++ members).map (·.1)).Pairwise (· < ·)) :
    members.foldl (fun sorted m => putMember m.1 m.2 sorted) front = front ++ members := by
  induction members generalizing front with
  | nil => exact (List.append_nil front).symm
  | cons m members ih =>
    have behind : ∀ n ∈ front, n.1 < m.1 := by
      intro n hn
      rw [List.map_append, List.pairwise_append] at h
      exact h.2.2 n.1 (List.mem_map_of_mem hn) m.1 List.mem_cons_self
    rw [List.foldl_cons, putMember_of_forall_lt behind, ih, List.append_assoc,
      List.singleton_append]
    rwa [List.append_assoc, List.singleton_append]

/-- **Members that are sorted stay as they are.** -/
theorem sortMembers_of_sorted {members : List (String × Json)}
    (h : (members.map (·.1)).Pairwise (· < ·)) : sortMembers members = members :=
  foldl_putMember [] h

theorem values?_itemTerms {items : List Json} {room : Nat}
    (h : ∀ v ∈ items, v.term.value? room = some v) :
    Term.values? room (itemTerms items) = some items := by
  induction items with
  | nil => rfl
  | cons v rest ih =>
    have others := ih fun w hw => h w (List.mem_cons_of_mem v hw)
    simp [itemTerms, Term.values?, h v List.mem_cons_self, others]

theorem memberValues?_memberTerms {members : List (String × Json)} {room : Nat}
    (h : ∀ m ∈ members, m.2.term.value? room = some m.2) :
    Term.memberValues? room (memberTerms members) = some members := by
  induction members with
  | nil => rfl
  | cons m rest ih =>
    have others := ih fun n hn => h n (List.mem_cons_of_mem m hn)
    simp [memberTerms, Term.memberValues?, h m List.mem_cons_self, others]

/-- **The tree of a value means the value**, where its brackets have room. -/
theorem value?_term {v : Json} (kept : v.IsKept) {room : Nat} (deep : v.depth ≤ room) :
    v.term.value? room = some v := by
  induction kept generalizing room with
  | null | bool b | string s => rfl
  | number fits => rw [term, Term.value?, value?_literal fits]; rfl
  | array _ ih =>
    obtain ⟨room, rfl⟩ : ∃ n, room = n + 1 := ⟨room - 1, by rw [depth] at deep; omega⟩
    have inside := depth_array_le_iff.mp deep
    rw [term, Term.value?, values?_itemTerms fun v hv => ih v hv (inside v hv)]
    rfl
  | object sorted _ ih =>
    obtain ⟨room, rfl⟩ : ∃ n, room = n + 1 := ⟨room - 1, by rw [depth] at deep; omega⟩
    have inside := depth_object_le_iff.mp deep
    rw [term, Term.value?, memberValues?_memberTerms fun m hm => ih m hm (inside m hm),
      Option.map_some, sortMembers_of_sorted sorted]

/-- **A value is read back from every text that lays out its tokens.** -/
theorem LaysOut.read? {v : Json} {cs : List Char} (h : LaysOut cs v.tokens) (kept : v.IsKept)
    (deep : v.depth ≤ greatestDepth) : Json.read? (String.ofList cs) = some v := by
  rw [Json.read?, h.term_read? kept.integral, Option.bind_eq_bind, Option.bind_some,
    value?_term kept deep]

end Folio.Json
