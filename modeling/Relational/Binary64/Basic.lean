/-!
# Floating-point numbers of 64 bits

Binary floating-point numbers of 64 bits, kept as their bit patterns.

A finite number is `n * 2 ^ e / 2 ^ 1074` with natural `n` and `e`, and its
pattern without the sign is `e * 2 ^ 52 + n`; this covers subnormal and normal
numbers alike.  All arithmetic is exact on such quotients, followed by one
rounding to the nearest pattern, with ties to the even one.

Powers are written with `Nat.pow`, because what `^` stands for depends on what is
imported.
-/

namespace Relational

/-- A number given by its bit pattern.  Two are equal when their patterns are:
zeros of different sign differ, and so do not-a-numbers with different
payloads. -/
structure Binary64 where
  bits : UInt64
  deriving DecidableEq, Hashable

namespace Binary64

/-- The pattern of infinity, the first that stands for no finite magnitude. -/
def infinityBits : Nat := 0x7FF0000000000000

/-- Places the sign bit above a pattern of 63 bits. -/
def signed (negative : Bool) (pattern : Nat) : Binary64 :=
  ⟨UInt64.ofNat (if negative then Nat.pow 2 63 + pattern else pattern)⟩

/-- Infinity of either sign. -/
def infinity (negative : Bool) : Binary64 := signed negative infinityBits

/-- Zero of either sign. -/
def zero (negative : Bool) : Binary64 := signed negative 0

/-- The quiet not-a-number without payload. -/
def nan (negative : Bool) : Binary64 := signed negative 0x7FF8000000000000

/-- Whether the sign bit is set. -/
def isNegative (x : Binary64) : Bool := Nat.pow 2 63 ≤ x.bits.toNat

/-- The pattern without its sign bit. -/
def pattern (x : Binary64) : Nat := x.bits.toNat % Nat.pow 2 63

/-- Whether the pattern is one of the not-a-numbers. -/
def isNaN (x : Binary64) : Bool := infinityBits < x.pattern

/-- Whether the number is finite. -/
def isFinite (x : Binary64) : Bool := x.pattern < infinityBits

/-- Whether the number is a zero of either sign. -/
def isZero (x : Binary64) : Bool := x.pattern == 0

/-- Equality of numbers: a not-a-number differs from everything, and the two
zeros are equal. -/
def sameNumber (x y : Binary64) : Bool :=
  !x.isNaN && !y.isNaN && (x == y || (x.isZero && y.isZero))

/-- The common denominator of all finite numbers. -/
def unitsPerOne : Nat := Nat.pow 2 1074

/-- The magnitude of a finite number in units of the least positive one. -/
def units (x : Binary64) : Nat :=
  if x.pattern < Nat.pow 2 52 then x.pattern
  else (Nat.pow 2 52 + x.pattern % Nat.pow 2 52) * Nat.pow 2 (x.pattern / Nat.pow 2 52 - 1)

/-- The integer nearest to `num / den`, the even one of two. -/
def roundHalfEven (num den : Nat) : Nat :=
  let low := num / den
  let rest := num % den
  if den < 2 * rest ∨ (2 * rest = den ∧ low % 2 = 1) then low + 1 else low

/-- The pattern nearest to `num / den`; magnitudes past the finite range give
infinity. -/
def nearestPattern (num den : Nat) : Nat :=
  let scaled := num * unitsPerOne
  let e := (scaled / den).log2 - 52
  min (e * Nat.pow 2 52 + roundHalfEven scaled (den * Nat.pow 2 e)) infinityBits

/-- The number nearest to `num / den`. -/
def ofRatio (negative : Bool) (num den : Nat) : Binary64 :=
  signed negative (nearestPattern num den)

/-- Ten to a power, rounded. -/
def powerOfTen (k : Nat) : Binary64 := ofRatio false (Nat.pow 10 k) 1

/-- The rounded product of two finite numbers, with the sign of the first. -/
def mul (x y : Binary64) : Binary64 :=
  ofRatio x.isNegative (x.units * y.units) (unitsPerOne * unitsPerOne)

/-- The rounded quotient of two finite numbers, the second positive, with the
sign of the first. -/
def div (x y : Binary64) : Binary64 :=
  ofRatio x.isNegative x.units y.units

end Binary64

/-- A number of 32 bits given by its bit pattern. -/
structure Binary32 where
  bits : UInt32
  deriving DecidableEq

namespace Binary32

/-- The same number in 64 bits.  A not-a-number keeps its sign and payload and
becomes quiet. -/
def widen (x : Binary32) : Binary64 :=
  let negative := Nat.pow 2 31 ≤ x.bits.toNat
  let pattern := x.bits.toNat % Nat.pow 2 31
  if 0x7F800000 < pattern then
    .signed negative
      (Binary64.infinityBits + Nat.pow 2 51 + (pattern % Nat.pow 2 22) * Nat.pow 2 29)
  else if pattern = 0x7F800000 then .infinity negative
  else
    let units :=
      if pattern < Nat.pow 2 23 then pattern
      else (Nat.pow 2 23 + pattern % Nat.pow 2 23) * Nat.pow 2 (pattern / Nat.pow 2 23 - 1)
    .ofRatio negative units (Nat.pow 2 149)

end Binary32

end Relational
