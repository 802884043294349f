import Relational.Json.Basic

/-!
# Writing JSON

JSON text of trees, on one line or indented.
-/

namespace Relational.Json

/-- How members are laid out: without any space, or each on its own line. -/
inductive Layout where
  | compact
  | indented
  deriving DecidableEq

namespace Layout

/-- The break before a member at some depth, or before the closing bracket. -/
def lineBreak (layout : Layout) (depth : Nat) : List Char :=
  match layout with
  | .compact => []
  | .indented => '\n' :: List.replicate (2 * depth) ' '

/-- What separates a key from its value. -/
def colon : Layout → List Char
  | .compact => [':']
  | .indented => [':', ' ']

end Layout

/-- A digit below sixteen. -/
def hexDigit (n : Nat) : Char := Nat.digitChar n

/-- A character inside a string literal. -/
def escape (c : Char) : List Char :=
  match c with
  | '"' => ['\\', '"']
  | '\\' => ['\\', '\\']
  | '\x08' => ['\\', 'b']
  | '\x0c' => ['\\', 'f']
  | '\n' => ['\\', 'n']
  | '\r' => ['\\', 'r']
  | '\t' => ['\\', 't']
  | _ =>
      if c.toNat < 0x20 then
        ['\\', 'u', '0', '0', hexDigit (c.toNat / 16), hexDigit (c.toNat % 16)]
      else [c]

/-- A string literal. -/
def quote (s : String) : List Char :=
  '"' :: (s.toList.flatMap escape ++ ['"'])

mutual

/-- The text of a tree whose members stand at a given depth. -/
def write (layout : Layout) (depth : Nat) : Json → List Char
  | .null => ['n', 'u', 'l', 'l']
  | .bool true => ['t', 'r', 'u', 'e']
  | .bool false => ['f', 'a', 'l', 's', 'e']
  | .number n => n.toText
  | .string s => quote s
  | .unpaired => ['"', '\\', 'u', 'd', '8', '0', '0', '"']
  | .array [] => ['[', ']']
  | .array (item :: items) =>
      '[' :: (layout.lineBreak (depth + 1) ++ write layout (depth + 1) item ++
        writeItems layout (depth + 1) items ++ layout.lineBreak depth ++ [']'])
  | .object [] => ['\x7b', '\x7d']
  | .object ((key, value) :: fields) =>
      '\x7b' :: (layout.lineBreak (depth + 1) ++ quote key ++ layout.colon ++
        write layout (depth + 1) value ++
        writeFields layout (depth + 1) fields ++ layout.lineBreak depth ++ ['\x7d'])

/-- The text of the items after the first. -/
def writeItems (layout : Layout) (depth : Nat) : List Json → List Char
  | [] => []
  | item :: items =>
      ',' :: (layout.lineBreak depth ++ write layout depth item ++ writeItems layout depth items)

/-- The text of the members after the first. -/
def writeFields (layout : Layout) (depth : Nat) : List (String × Json) → List Char
  | [] => []
  | (key, value) :: fields =>
      ',' :: (layout.lineBreak depth ++ quote key ++ layout.colon ++
        write layout depth value ++ writeFields layout depth fields)

end

/-- The text on one line. -/
def compact (json : Json) : String := String.ofList (write .compact 0 json)

/-- The text with one member on a line, indented by two spaces a level. -/
def pretty (json : Json) : String := String.ofList (write .indented 0 json)

end Relational.Json
