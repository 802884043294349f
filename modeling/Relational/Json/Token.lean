import Relational.Json.Basic

/-!
# JSON tokens

The tokens of JSON text.  One pass over the characters finds them; the state of
the pass says what kind of token has been begun.
-/

namespace Relational

/-- What a string literal is made of: characters, and escapes of 16 bits. -/
inductive StringUnit where
  | char (c : Char)
  | escape (code : Nat)

namespace StringUnit

/-- The text of a string literal.  A surrogate counts only as half of a pair. -/
def text : List StringUnit → Option (List Char)
  | [] => some []
  | .char c :: rest => (text rest).map (c :: ·)
  | .escape high :: .escape low :: rest =>
      if 0xD800 ≤ high ∧ high < 0xDC00 then
        if 0xDC00 ≤ low ∧ low < 0xE000 then
          let code := 0x10000 + (high - 0xD800) * 0x400 + (low - 0xDC00)
          (text rest).map (Char.ofNat code :: ·)
        else none
      else if 0xDC00 ≤ high ∧ high < 0xE000 then none
      else (text (.escape low :: rest)).map (Char.ofNat high :: ·)
  | .escape code :: rest =>
      if 0xD800 ≤ code ∧ code < 0xE000 then none
      else (text rest).map (Char.ofNat code :: ·)

end StringUnit

/-- A token of JSON text.  A string without text is one with an unpaired
surrogate. -/
inductive Token where
  | openObject
  | closeObject
  | openArray
  | closeArray
  | colon
  | comma
  | null
  | bool (value : Bool)
  | number (numeral : Numeral)
  | string (text : Option String)

namespace Token

/-- What has been begun: nothing, a bare word or number, a string, an escape
in a string, or the digits of an escape with the digits still missing. -/
inductive Pending where
  | nothing
  | bare (reversed : List Char)
  | quoted (reversed : List StringUnit)
  | escaped (reversed : List StringUnit)
  | hex (reversed : List StringUnit) (missing code : Nat)

/-- The white space of JSON text. -/
def isGap (c : Char) : Bool :=
  c == ' ' || c == '\n' || c == '\r' || c == '\t'

/-- The characters of words and numbers. -/
def isBare (c : Char) : Bool :=
  c.isAlphanum || c == '-' || c == '+' || c == '.'

/-- The token that a single character is. -/
def ofPunctuation (c : Char) : Option Token :=
  match c with
  | '\x7b' => some openObject
  | '\x7d' => some closeObject
  | '[' => some openArray
  | ']' => some closeArray
  | ':' => some colon
  | ',' => some comma
  | _ => none

/-- The token that a run of word characters is. -/
def ofBare (cs : List Char) : Option Token :=
  if cs = ['n', 'u', 'l', 'l'] then some null
  else if cs = ['t', 'r', 'u', 'e'] then some (bool true)
  else if cs = ['f', 'a', 'l', 's', 'e'] then some (bool false)
  else (Numeral.ofText cs).map number

/-- The character that a one-letter escape stands for. -/
def ofEscape (c : Char) : Option Char :=
  match c with
  | '"' => some '"'
  | '\\' => some '\\'
  | '/' => some '/'
  | 'b' => some '\x08'
  | 'f' => some '\x0c'
  | 'n' => some '\n'
  | 'r' => some '\r'
  | 't' => some '\t'
  | _ => none

/-- The value of a hexadecimal digit in either case. -/
def hexValue (c : Char) : Option Nat :=
  if '0' ≤ c ∧ c ≤ '9' then some (c.toNat - '0'.toNat)
  else if 'a' ≤ c ∧ c ≤ 'f' then some (c.toNat - 'a'.toNat + 10)
  else if 'A' ≤ c ∧ c ≤ 'F' then some (c.toNat - 'A'.toNat + 10)
  else none

/-- One character when nothing has been begun: a token that it completes, and
what it begins. -/
def start (c : Char) : Option (Option Token × Pending) :=
  if isGap c then some (none, .nothing)
  else if isBare c then some (none, .bare [c])
  else if c = '"' then some (none, .quoted [])
  else (ofPunctuation c).map fun token => (some token, .nothing)

/-- One character of the text: the tokens that it completes, and what has been
begun after it. -/
def step (pending : Pending) (c : Char) : Option (List Token × Pending) :=
  match pending with
  | .nothing => (start c).map fun (token, next) => (token.toList, next)
  | .bare cs =>
      if isBare c then some ([], .bare (c :: cs))
      else
        match ofBare cs.reverse, start c with
        | some word, some (token, next) => some (word :: token.toList, next)
        | _, _ => none
  | .quoted units =>
      if c = '"' then
        some ([string ((StringUnit.text units.reverse).map String.ofList)], .nothing)
      else if c = '\\' then some ([], .escaped units)
      else if c.toNat < 0x20 then none
      else some ([], .quoted (.char c :: units))
  | .escaped units =>
      if c = 'u' then some ([], .hex units 4 0)
      else (ofEscape c).map fun d => ([], .quoted (.char d :: units))
  | .hex units missing code =>
      (hexValue c).map fun digit =>
        let code := code * 16 + digit
        if missing ≤ 1 then ([], .quoted (.escape code :: units))
        else ([], .hex units (missing - 1) code)

/-- The tokens that the end of the text completes. -/
def finish : Pending → Option (List Token)
  | .nothing => some []
  | .bare cs => (ofBare cs.reverse).map ([·])
  | _ => none

/-- The tokens of the text after what has been begun. -/
def scan (pending : Pending) : List Char → Option (List Token)
  | [] => finish pending
  | c :: cs =>
      match step pending c with
      | none => none
      | some ([], next) => scan next cs
      | some (tokens, next) => (scan next cs).map (tokens ++ ·)

/-- The tokens of a JSON text. -/
def ofText (cs : List Char) : Option (List Token) := scan .nothing cs

end Token

end Relational
