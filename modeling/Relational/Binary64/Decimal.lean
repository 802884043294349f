import Relational.Binary64.Basic

/-!
# Binary and decimal

From binary to decimal and back.

A decimal is read by one correct rounding.  It is written with the fewest
digits that read back as the same number, and among those as the nearest.
-/

namespace Relational

/-- The number `0.d₁d₂… * 10 ^ point`, given by its digits `d₁d₂…`. -/
structure Decimal where
  digits : List Char
  point : Int
  deriving DecidableEq

/-- Which of two equally near decimals is written. -/
inductive Tie where
  | even
  | greater
  deriving DecidableEq

namespace Binary64

/-- The number nearest to `digits * 10 ^ exponent`.  Magnitudes that are past
the finite range, or nearer to zero than to any other number, are told by the
place of the first digit alone. -/
def ofDecimal (negative : Bool) (digits : List Char) (exponent : Int) : Binary64 :=
  let significant := digits.dropWhile (· == '0')
  let top := exponent + significant.length
  if significant = [] then zero negative
  else if 310 < top then infinity negative
  else if top < -330 then zero negative
  else
    let n := Nat.ofDigitChars 10 significant 0
    match exponent with
    | .ofNat k => ofRatio negative (n * Nat.pow 10 k) 1
    | .negSucc k => ofRatio negative n (Nat.pow 10 (k + 1))

/-- The magnitude of a finite number times `10 ^ shift`, as a quotient. -/
def shifted (x : Binary64) (shift : Int) : Nat × Nat :=
  match shift with
  | .ofNat k => (x.units * Nat.pow 10 k, unitsPerOne)
  | .negSucc k => (x.units, unitsPerOne * Nat.pow 10 (k + 1))

/-- Whether `n / 10 ^ shift` is read as a number of the same magnitude. -/
def readsBack (x : Binary64) (n : Nat) (shift : Int) : Bool :=
  let pattern := match shift with
    | .ofNat k => nearestPattern n (Nat.pow 10 k)
    | .negSucc k => nearestPattern (n * Nat.pow 10 (k + 1)) 1
  pattern == x.pattern

/-- The place of the first digit: a positive number lies below ten to this
power and not below ten to the one before. -/
def leadingPlace (x : Binary64) : Int :=
  (Nat.toDigits 10 (x.units * Nat.pow 10 330 / unitsPerOne)).length - 330

/-- Of the two neighbours of a magnitude on the grid of `10 ^ -shift`, the
nearest that reads back, as a multiple of the grid. -/
def neighbour? (tie : Tie) (x : Binary64) (shift : Int) : Option Nat :=
  let (num, den) := x.shifted shift
  let low := num / den
  let rest := num % den
  match x.readsBack low shift, x.readsBack (low + 1) shift with
  | true, true =>
      if 2 * rest < den then some low
      else if den < 2 * rest then some (low + 1)
      else
        match tie with
        | .greater => some (low + 1)
        | .even => some (low + low % 2)
  | true, false => some low
  | false, true => some (low + 1)
  | false, false => none

/-- The decimal `n / 10 ^ shift` without zeros at its end. -/
def decimalOf (n : Nat) (shift : Int) : Decimal :=
  let digits := Nat.toDigits 10 n
  { digits := (digits.reverse.dropWhile (· == '0')).reverse
    point := digits.length - shift }

/-- The fewest digits, up to seventeen, that read back as a finite number, up to
its sign. -/
def shortest? (tie : Tie) (x : Binary64) : Option Decimal :=
  let place := x.leadingPlace
  (List.range 17).findSome? fun (i : Nat) =>
    let shift := (i : Int) + 1 - place
    (x.neighbour? tie shift).map fun n => decimalOf n shift

/-- The fewest digits that read back as a finite number, up to its sign.  If
seventeen were too few, all digits of the number would do. -/
def shortest (tie : Tie) (x : Binary64) : Decimal :=
  (x.shortest? tie).getD (decimalOf (x.units * Nat.pow 5 1074) 1074)

end Binary64

namespace Decimal

/-- The digits before and after the decimal point when no exponent is
written. -/
def positional (d : Decimal) : List Char × List Char :=
  match d.point with
  | .ofNat k =>
      let whole := d.digits.take k ++ List.replicate (k - d.digits.length) '0'
      (if whole = [] then ['0'] else whole, d.digits.drop k)
  | .negSucc k => (['0'], List.replicate (k + 1) '0' ++ d.digits)

end Decimal

end Relational
