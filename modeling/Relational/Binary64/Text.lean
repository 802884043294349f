import Relational.Binary64.Decimal
import Relational.Text.Letters
import Relational.Text.Number

/-!
# Floating-point numbers in SQL

Floating-point numbers in SQL text.  They are written without an exponent, and
without a fraction when there is none; they are read with or without either.
-/

namespace Relational.Binary64

/-- The digits and the decimal exponent of `12`, `1.`, `.5` or `1.5e-3`. -/
def readDecimal (cs : List Char) : Option (List Char × Int) :=
  let whole := cs.takeWhile Char.isDigit
  let rest := cs.dropWhile Char.isDigit
  let (fraction, rest) := match rest with
    | '.' :: more => (more.takeWhile Char.isDigit, more.dropWhile Char.isDigit)
    | _ => ([], rest)
  let digits := whole ++ fraction
  if digits = [] then none
  else
    match rest with
    | [] => some (digits, -fraction.length)
    | c :: more =>
        if c = 'e' ∨ c = 'E' then
          let (negative, exponent) := Text.readSign more
          (Text.readDigits exponent).map fun n =>
            (digits, (if negative then -n else n) - fraction.length)
        else none

/-- Reads a number after an optional sign: a decimal, correctly rounded, or
the name of an infinity or of the not-a-number in any case. -/
def ofText (cs : List Char) : Option Binary64 :=
  let (negative, body) := Text.readSign cs
  match readDecimal body with
  | some (digits, exponent) => some (ofDecimal negative digits exponent)
  | none =>
      if Text.sameLetters body ['i', 'n', 'f'] ∨
          Text.sameLetters body ['i', 'n', 'f', 'i', 'n', 'i', 't', 'y'] then
        some (infinity negative)
      else if Text.sameLetters body ['n', 'a', 'n'] then some (nan negative)
      else none

/-- The shortest text that reads back, with ties to the greater decimal. -/
def toText (x : Binary64) : List Char :=
  if x.isNaN then ['N', 'a', 'N']
  else
    let magnitude :=
      if !x.isFinite then ['i', 'n', 'f']
      else if x.isZero then ['0']
      else
        match (x.shortest .greater).positional with
        | (whole, []) => whole
        | (whole, fraction) => whole ++ '.' :: fraction
    if x.isNegative then '-' :: magnitude else magnitude

end Relational.Binary64
