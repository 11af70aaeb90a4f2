/-
# A JSON document that is opened as a text

A model of texts loads a JSON value in its pretty form, and from then on the text is the document:
it is what is shown, edited and saved.  So the value must be found in it again.

The pretty form has the tokens of the compact form.  What it adds stands in front of tokens and is
blank: a new line and the indentation in front of every item, member and closing bracket, and one
blank behind each colon.  How far a line is indented depends on how deep the value stands, so the
tokens are counted at every depth (`laysOut_prettyChars`).
-/
import Folio.Document.Model
import Folio.Proofs.Json.Records

namespace Folio

namespace Json

/-! ## 1. The tokens of the pretty form -/

theorem isBlank_of_mem_newline {depth : Nat} : ∀ c ∈ newline depth, isBlank c = true := by
  intro c hc
  rcases List.mem_cons.mp hc with rfl | indentation
  · rfl
  · rw [List.eq_of_mem_replicate indentation]
    rfl

theorem tokens_ne_nil (v : Json) : v.tokens ≠ [] := by
  cases v <;> exact List.cons_ne_nil _ _

/-- A bracket that closes on a line of its own. -/
theorem LaysOut.close {cs : List Char} {ts : List Token} (inside : LaysOut cs ts) (depth : Nat)
    (t : Token) : LaysOut (cs ++ newline depth ++ t.text) (ts ++ [t]) := by
  have closing : LaysOut (newline depth ++ t.text) [t] :=
    (LaysOut.token t).indent isBlank_of_mem_newline (by simp)
  rw [List.append_assoc]
  exact inside.append closing

/-- The pretty form lays out the tokens of a value, wherever the value stands. -/
def IsPretty (v : Json) : Prop := ∀ depth, LaysOut (v.prettyChars depth) v.tokens

/-- A value on a line of its own. -/
theorem IsPretty.line {v : Json} (h : v.IsPretty) (depth : Nat) :
    LaysOut (newline depth ++ v.prettyChars depth) v.tokens :=
  (h depth).indent isBlank_of_mem_newline (tokens_ne_nil v)

/-- A member on a line of its own. -/
theorem IsPretty.member {v : Json} (h : v.IsPretty) (k : String) (depth : Nat) :
    LaysOut (newline depth ++ quote k.toList ++ Token.colon.text ++ ' ' :: v.prettyChars depth)
      (.string (some k) :: .colon :: v.tokens) := by
  have key : LaysOut (newline depth ++ quote k.toList) [.string (some k)] :=
    (LaysOut.token (.string (some k))).indent isBlank_of_mem_newline (by simp)
  have value : LaysOut ([' '] ++ v.prettyChars depth) v.tokens :=
    (h depth).indent (List.forall_mem_singleton.mpr rfl) (tokens_ne_nil v)
  simpa using (key.append (.token .colon)).append value

theorem laysOut_prettyItems {items : List Json} (h : ∀ v ∈ items, v.IsPretty) (depth : Nat) :
    LaysOut (prettyItems depth items) (itemTokens items) := by
  induction items with
  | nil => exact .flatMap_text []
  | cons v rest ih =>
    have first := (h v List.mem_cons_self).line depth
    have others := ih fun w hw => h w (List.mem_cons_of_mem v hw)
    cases rest with
    | nil => exact first
    | cons w rest => simpa [prettyItems, itemTokens] using
        (first.append (.token .comma)).append others

theorem laysOut_prettyMembers {members : List (String × Json)}
    (h : ∀ m ∈ members, m.2.IsPretty) (depth : Nat) :
    LaysOut (prettyMembers depth members) (memberTokens members) := by
  induction members with
  | nil => exact .flatMap_text []
  | cons m rest ih =>
    obtain ⟨k, v⟩ := m
    have first := (h (k, v) List.mem_cons_self).member k depth
    have others := ih fun n hn => h n (List.mem_cons_of_mem (k, v) hn)
    cases rest with
    | nil => exact first
    | cons n rest => simpa [prettyMembers, memberTokens] using
        (first.append (.token .comma)).append others

/-- **The pretty form lays out the tokens of a value**, at every depth. -/
theorem laysOut_prettyChars {v : Json} (h : v.IsIntegral) : v.IsPretty := by
  induction h with
  | null => exact fun _ => .token .null
  | bool b => exact fun _ => .token (.bool b)
  | string s => exact fun _ => .token (.string (some s))
  | @number n integer =>
    intro depth
    cases n with
    | integer i => simpa [prettyChars, tokens, Token.text, Number.text, Literal.text_ofInt] using
        LaysOut.token (.number (.ofInt i))
    | double bits => exact integer.elim
  | @array items _ ih =>
    intro depth
    cases items with
    | nil => exact (LaysOut.token .openArray).append (.token .closeArray)
    | cons v rest =>
      have inside := (LaysOut.token .openArray).append (laysOut_prettyItems ih (depth + 1))
      exact inside.close depth .closeArray
  | @object members _ _ ih =>
    intro depth
    cases members with
    | nil => exact (LaysOut.token .openObject).append (.token .closeObject)
    | cons m rest =>
      have inside := (LaysOut.token .openObject).append (laysOut_prettyMembers ih (depth + 1))
      exact inside.close depth .closeObject

/-- **A value is read back from its pretty form.** -/
theorem read?_pretty {v : Json} (kept : v.IsKept) (deep : v.depth ≤ greatestDepth) :
    read? v.pretty = some v :=
  (laysOut_prettyChars kept.integral 0).read? kept deep

end Json

/-! ## 2. The text of the document -/

/-- **A JSON document that is opened as a text keeps its value.**  A model of texts, whatever it
held, loads every value; its flags stay, its text is the pretty form, the content it is persisted
as is that text, and the value is read back from it exactly.

The value is one that can be held: its integers have sixty-four bits, the members of its objects
are sorted by their keys, and no more brackets are open at a time than the reader admits. -/
theorem Model.json_opened_as_text {m : Model} (kind : m.kind = .text) {v : Json}
    (kept : v.IsKept) (deep : v.depth ≤ Json.greatestDepth) :
    ∃ text, m.load (.json v) = .ok ⟨.text text, m.dirty, m.readOnly⟩ ∧ text = v.pretty ∧
      (Model.mk (.text text) m.dirty m.readOnly).content = .text text ∧
      Json.read? text = some v := by
  refine ⟨v.pretty, ?_, rfl, rfl, Json.read?_pretty kept deep⟩
  rw [Model.load, kind]
  rfl

/-- A value with empty brackets of both kinds beside brackets in brackets. -/
def Json.sparse : Json :=
  .array [.array [], .nested, .object [], .array [.object [("\t\\/é", .string "\u007f😀")]]]

/-- A model with changes loads it. -/
theorem Model.json_opened_as_text_sparse :
    (Model.mk (.text "before") true false).kind = .text ∧ Json.sparse.IsKept ∧
      Json.sparse.depth ≤ Json.greatestDepth ∧
    ∃ text, (Model.mk (.text "before") true false).load (.json .sparse) =
        .ok ⟨.text text, true, false⟩ ∧ text = Json.sparse.pretty ∧
      (Model.mk (.text text) true false).content = .text text ∧
      Json.read? text = some .sparse := by
  have last : (Json.object [("\t\\/é", .string "\u007f😀")]).IsKept := .object (by decide) (by simp)
  have kept : Json.sparse.IsKept := by
    refine .array ?_
    simp only [List.forall_mem_cons]
    exact ⟨.array (by simp), Json.isKept_nested, .object (by decide) (by simp),
      .array (List.forall_mem_singleton.mpr last), by simp⟩
  have deep : Json.sparse.depth ≤ Json.greatestDepth := by decide
  exact ⟨rfl, kept, deep, json_opened_as_text rfl kept deep⟩

end Folio
