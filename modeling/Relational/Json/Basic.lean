/-!
# JSON trees

JSON trees.  Numbers keep the digits they are written with, and objects keep
the order and the repetition of their keys.
-/

namespace Relational

/-- The sign before the digits of an exponent. -/
inductive ExponentSign where
  | unwritten
  | plus
  | minus
  deriving DecidableEq

/-- A number as it is written.  Without a fraction there are no fraction
digits. -/
structure Numeral where
  negative : Bool
  whole : List Char
  fraction : List Char
  exponent : Option (ExponentSign × List Char)
  deriving DecidableEq

/-- A JSON tree. -/
inductive Json where
  | null
  | bool (value : Bool)
  | number (numeral : Numeral)
  | string (text : String)
  | array (items : List Json)
  | object (fields : List (String × Json))
  /-- A string with an escaped surrogate that has no partner, or an object with
  such a key.  It stands for no text and can only be passed over. -/
  | unpaired

namespace Numeral

/-- The numeral of a natural number. -/
def ofNat (n : Nat) : Numeral := ⟨false, Nat.toDigits 10 n, [], none⟩

/-- The numeral of an integer. -/
def ofInt : Int → Numeral
  | .ofNat n => ofNat n
  | .negSucc n => { ofNat (n + 1) with negative := true }

/-- The numeral as text. -/
def toText (n : Numeral) : List Char :=
  let sign := if n.negative then ['-'] else []
  let fraction := if n.fraction = [] then [] else '.' :: n.fraction
  let exponent := match n.exponent with
    | none => []
    | some (.unwritten, digits) => 'e' :: digits
    | some (.plus, digits) => 'e' :: '+' :: digits
    | some (.minus, digits) => 'e' :: '-' :: digits
  sign ++ n.whole ++ fraction ++ exponent

/-- Reads an exponent part to the end of the text. -/
def readExponent (cs : List Char) : Option (ExponentSign × List Char) :=
  let (sign, digits) := match cs with
    | '+' :: rest => (ExponentSign.plus, rest)
    | '-' :: rest => (ExponentSign.minus, rest)
    | _ => (ExponentSign.unwritten, cs)
  if digits ≠ [] ∧ digits.all Char.isDigit then some (sign, digits) else none

/-- Reads what follows the whole part. -/
def readTail (negative : Bool) (whole fraction : List Char) : List Char → Option Numeral
  | [] => some ⟨negative, whole, fraction, none⟩
  | c :: cs =>
      if c = 'e' ∨ c = 'E' then
        (readExponent cs).map fun exponent => ⟨negative, whole, fraction, some exponent⟩
      else none

/-- Reads a numeral that makes up the whole text: no plus sign, no leading
zeros, and digits on both sides of a point. -/
def ofText (cs : List Char) : Option Numeral :=
  let (negative, body) := match cs with
    | '-' :: rest => (true, rest)
    | _ => (false, cs)
  let whole := body.takeWhile Char.isDigit
  let rest := body.dropWhile Char.isDigit
  if whole = [] ∨ (whole.head? = some '0' ∧ whole ≠ ['0']) then none
  else
    match rest with
    | '.' :: more =>
        let fraction := more.takeWhile Char.isDigit
        if fraction = [] then none
        else readTail negative whole fraction (more.dropWhile Char.isDigit)
    | _ => readTail negative whole [] rest

end Numeral

end Relational
