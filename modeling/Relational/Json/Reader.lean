import Relational.Json.Token

/-!
# Reading JSON

JSON trees from tokens.  The lists and objects that are open form a stack, so
any depth is read by one pass.
-/

namespace Relational.Json

/-- A list or object that is open, with its finished members in reverse; an
object also has the key of the member that is being read. -/
inductive Frame where
  | array (items : List Json)
  | object (fields : List (Option String × Json)) (key : Option String)

/-- What must come next. -/
inductive Expected where
  | value
  | itemOrClose
  | keyOrClose
  | key (fields : List (Option String × Json))
  | colon (fields : List (Option String × Json)) (key : Option String)
  | after (value : Json)

/-- The object of these members in reverse. -/
def ofFields (reversed : List (Option String × Json)) : Json :=
  match reversed.reverse.mapM fun (key, value) => key.map fun k => (k, value) with
  | some fields => .object fields
  | none => .unpaired

/-- The tree that a token is, if it is one by itself. -/
def ofScalar : Token → Option Json
  | .null => some .null
  | .bool b => some (.bool b)
  | .number n => some (.number n)
  | .string (some s) => some (.string s)
  | .string none => some .unpaired
  | _ => none

/-- One token where a value must begin. -/
def beginValue (stack : List Frame) (token : Token) : Option (List Frame × Expected) :=
  match token with
  | .openArray => some (stack, .itemOrClose)
  | .openObject => some (stack, .keyOrClose)
  | _ => (ofScalar token).map fun value => (stack, .after value)

/-- One token of the text. -/
def step (stack : List Frame) (expected : Expected) (token : Token) :
    Option (List Frame × Expected) :=
  match expected, token with
  | .value, _ => beginValue stack token
  | .itemOrClose, .closeArray => some (stack, .after (.array []))
  | .itemOrClose, _ => beginValue (.array [] :: stack) token
  | .keyOrClose, .closeObject => some (stack, .after (.object []))
  | .keyOrClose, .string key => some (stack, .colon [] key)
  | .key fields, .string key => some (stack, .colon fields key)
  | .colon fields key, .colon => some (.object fields key :: stack, .value)
  | .after value, _ =>
      match stack, token with
      | .array items :: rest, .comma => some (.array (value :: items) :: rest, .value)
      | .array items :: rest, .closeArray => some (rest, .after (.array (value :: items).reverse))
      | .object fields key :: rest, .comma => some (rest, .key ((key, value) :: fields))
      | .object fields key :: rest, .closeObject =>
          some (rest, .after (ofFields ((key, value) :: fields)))
      | _, _ => none
  | _, _ => none

/-- The tree of the remaining tokens. -/
def build (stack : List Frame) (expected : Expected) : List Token → Option Json
  | [] =>
      match stack, expected with
      | [], .after value => some value
      | _, _ => none
  | token :: tokens =>
      match step stack expected token with
      | none => none
      | some (stack, expected) => build stack expected tokens

/-- The tree of a sequence of tokens. -/
def ofTokens (tokens : List Token) : Option Json := build [] .value tokens

/-- Reads a JSON text. -/
def ofText (cs : List Char) : Option Json := (Token.ofText cs).bind ofTokens

end Relational.Json
