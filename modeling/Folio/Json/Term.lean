/-
# A JSON text as a tree

`Term` is a JSON text as it is written: numbers keep their digits, members their order, and keys
may repeat.  What such a tree means, and whether it is acceptable at all, is decided where it is
read as a value of some type; a part that is ignored there needs no meaning.

The tree is built by one pass over the tokens.  `Stage` is what has been read so far: the brackets
that are open, innermost first, and what may come next.  Nothing bounds the nesting here.
-/
import Folio.Json.Basic
import Folio.Json.Token

namespace Folio.Json

/-- **A JSON text as it is written.**  A string is `none` if it contains half a surrogate pair. -/
inductive Term where
  | null
  | bool (value : Bool)
  | number (literal : Literal)
  | string (text : Option String)
  | array (items : List Term)
  | object (members : List (Option String × Term))
  deriving Inhabited

/-- **An open bracket** with what stands in it so far, last first; `key` is the key whose value is
being read. -/
inductive Frame where
  | array (done : List Term)
  | object (done : List (Option String × Term)) (key : Option String)

/-- **What has been read and what may come next.** -/
inductive Stage where
  /-- A value must come. -/
  | value (frames : List Frame)
  /-- An array has just been opened: a value or its end must come. -/
  | item (frames : List Frame)
  /-- In an object, a key must come, or, if `first`, its end. -/
  | key (frames : List Frame) (done : List (Option String × Term)) (first : Bool)
  /-- The colon behind a key must come. -/
  | colon (frames : List Frame) (done : List (Option String × Term)) (key : Option String)
  /-- A value is complete: a comma or a closing bracket must come, or the text ends. -/
  | complete (frames : List Frame) (term : Term)

/-- The first token of a value. -/
def Stage.start (frames : List Frame) : Token → Option Stage
  | .null => some (.complete frames .null)
  | .bool b => some (.complete frames (.bool b))
  | .number l => some (.complete frames (.number l))
  | .string s => some (.complete frames (.string s))
  | .openArray => some (.item frames)
  | .openObject => some (.key frames [] true)
  | _ => none

/-- **One token more.** -/
def Stage.next : Stage → Token → Option Stage
  | .value frames, t => Stage.start frames t
  | .item frames, .closeArray => some (.complete frames (.array []))
  | .item frames, t => Stage.start (.array [] :: frames) t
  | .key frames done _, .string k => some (.colon frames done k)
  | .key frames _ true, .closeObject => some (.complete frames (.object []))
  | .colon frames done k, .colon => some (.value (.object done k :: frames))
  | .complete (.array done :: frames) t, .comma => some (.value (.array (t :: done) :: frames))
  | .complete (.array done :: frames) t, .closeArray =>
    some (.complete frames (.array (t :: done).reverse))
  | .complete (.object done k :: frames) t, .comma => some (.key frames ((k, t) :: done) false)
  | .complete (.object done k :: frames) t, .closeObject =>
    some (.complete frames (.object ((k, t) :: done).reverse))
  | _, _ => none

/-- The tree that has been read, if the text may end here. -/
def Stage.finish : Stage → Option Term
  | .complete [] t => some t
  | _ => none

/-- The tree that a row of tokens forms. -/
def Term.ofTokens? (tokens : List Token) : Option Term :=
  tokens.foldlM Stage.next (Stage.value []) >>= Stage.finish

/-- **The tree of a text**, with nothing but blanks around it. -/
def Term.read? (text : String) : Option Term :=
  Token.readAll text.toList >>= Term.ofTokens?

end Folio.Json
