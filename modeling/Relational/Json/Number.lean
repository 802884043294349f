import Relational.Binary64.Decimal
import Relational.Json.Basic

/-!
# JSON numbers of fixed width

Numbers of fixed width as JSON numerals.

An integer is a numeral without fraction and exponent.  A floating-point number
is read from its leading digits, as many as fit 64 bits, and one multiplication
or division by a power of ten; this is not always the nearest number.  It is
written with the shortest digits that a correctly rounding reader takes back.
-/

namespace Relational.Numeral

/-- The integer that a numeral spells when it has no fraction and no exponent.
A negative zero is no integer. -/
def toInt? (n : Numeral) : Option Int :=
  if n.fraction = [] ∧ n.exponent = none then
    let magnitude := Nat.ofDigitChars 10 n.whole 0
    if n.negative then
      if magnitude = 0 then none else some (-magnitude)
    else some magnitude
  else none

/-- Appends digits to a significand while it stays below `2 ^ 64`.  The digits
that no longer fit are left over. -/
def accumulate (significand : Nat) : List Char → Nat × List Char
  | [] => (significand, [])
  | c :: cs =>
      let next := significand * 10 + (c.toNat - '0'.toNat)
      if next < UInt64.size then accumulate next cs else (significand, c :: cs)

/-- The significand and decimal exponent that the digits give before the
written exponent: a whole digit that does not fit counts one power of ten, and
a fraction digit that does not fit is dropped with all after it. -/
def leading (n : Numeral) : Nat × Int :=
  let (whole, beyond) := accumulate 0 n.whole
  let (significand, dropped) := accumulate whole n.fraction
  (significand, (beyond.length + dropped.length : Int) - n.fraction.length)

/-- The written exponent. -/
def exponentValue (n : Numeral) : Int :=
  match n.exponent with
  | none => 0
  | some (.minus, digits) => -(Nat.ofDigitChars 10 digits 0 : Nat)
  | some (_, digits) => (Nat.ofDigitChars 10 digits 0 : Nat)

/-- The significand times a power of ten by rounded operations; none when it
overflows.  A power too small to be a divisor is divided off in two steps, and
whatever is smaller still is zero. -/
def scale (significand : Nat) (exponent : Int) : Option Binary64 :=
  let start := Binary64.ofRatio false significand 1
  if start.isZero then some start
  else if 308 < exponent then none
  else if 0 ≤ exponent then
    some (start.mul (Binary64.powerOfTen exponent.toNat)) |>.filter Binary64.isFinite
  else if -308 ≤ exponent then
    some (start.div (Binary64.powerOfTen (-exponent).toNat))
  else
    let reduced := start.div (Binary64.powerOfTen 308)
    if -616 ≤ exponent then
      some (reduced.div (Binary64.powerOfTen (-(exponent + 308)).toNat))
    else some (.zero false)

/-- The floating-point number that a numeral is read as; none when it
overflows. -/
def toBinary64? (n : Numeral) : Option Binary64 :=
  let (significand, shift) := n.leading
  (scale significand (shift + n.exponentValue)).map fun x => .signed n.negative x.pattern

/-- The numeral of a decimal.  The exponent is left out from `0.00001` to below
ten to the sixteenth, and a fraction is written then even if it is zero. -/
def ofDecimal (negative : Bool) (d : Decimal) : Numeral :=
  let power := d.point - 1
  if -5 ≤ power ∧ power < 16 then
    let (whole, fraction) := d.positional
    ⟨negative, whole, if fraction = [] then ['0'] else fraction, none⟩
  else
    let sign := if power < 0 then ExponentSign.minus else .plus
    ⟨negative, d.digits.take 1, d.digits.drop 1, some (sign, Nat.toDigits 10 power.natAbs)⟩

/-- The numeral of a finite number. -/
def ofBinary64 (x : Binary64) : Numeral :=
  if x.isZero then ⟨x.isNegative, ['0'], ['0'], none⟩
  else ofDecimal x.isNegative (x.shortest .even)

end Relational.Numeral
