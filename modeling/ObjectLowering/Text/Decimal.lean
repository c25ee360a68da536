/-
**The shortest decimal that reads back as a binary64 number.**

The bits of a finite number give a significand and a power of two. Every real between the middles to
its two neighbours reads back as the number, the middles included if the significand is even. Of the
decimals in that stretch with the fewest digits the nearest to the number is taken, the greater one
of two that are equally near.

* `Binary64.ofBits` splits the bits.
* `Binary64.shortest` finds the digits and the power of ten, in exact arithmetic.
* `floatText` writes them: by position from 10⁻⁴ up to below 10¹⁶, else with an exponent.
-/

namespace ObjectLowering.Text

/-- The magnitude of a finite number as `significand * 2 ^ exponent`. -/
structure Binary64 where
  significand : Nat
  exponent : Int
  /-- The number below is half as far away as the one above. -/
  nearBelow : Bool
  deriving DecidableEq, Repr

/-- A decimal `digits * 10 ^ exponent`. -/
structure Decimal where
  digits : Nat
  exponent : Int
  deriving DecidableEq, Repr

def isNegative (bits : UInt64) : Bool := Nat.pow 2 63 ≤ bits.toNat

/-- The eleven bits of the biased exponent. -/
def biasedExponent (bits : UInt64) : Nat := bits.toNat / Nat.pow 2 52 % Nat.pow 2 11

/-- The fifty-two bits behind the point. -/
def fraction (bits : UInt64) : Nat := bits.toNat % Nat.pow 2 52

/-- Whether the bits are those of no number. -/
def isNaN (bits : UInt64) : Bool := biasedExponent bits == 2047 && fraction bits != 0

/-- Whether the bits are those of an infinity. -/
def isInfinite (bits : UInt64) : Bool := biasedExponent bits == 2047 && fraction bits == 0

namespace Binary64

/-- The magnitude that the bits of a finite number state. -/
def ofBits (bits : UInt64) : Binary64 :=
  let biased := biasedExponent bits
  if biased = 0 then
    ⟨fraction bits, -1074, false⟩
  else
    ⟨Nat.pow 2 52 + fraction bits, (biased : Int) - 1075, fraction bits == 0 && 1 < biased⟩

/-- Compares `digits * 10 ^ tens` with `quarters * 2 ^ twos`, on a common scale. -/
def compareScaled (digits : Nat) (tens : Int) (quarters : Nat) (twos : Int) : Ordering :=
  compare (digits * Nat.pow 10 tens.toNat * Nat.pow 2 (-twos).toNat)
    (quarters * Nat.pow 2 twos.toNat * Nat.pow 10 (-tens).toNat)

/-- Whether a decimal reads back as the number. The middles to the neighbours are stated in quarters
of the unit of the significand. -/
def readsBack (number : Binary64) (decimal : Decimal) : Bool :=
  let twos := number.exponent - 2
  let low := 4 * number.significand - if number.nearBelow then 1 else 2
  let high := 4 * number.significand + 2
  let even := number.significand % 2 == 0
  let aboveLow := compareScaled decimal.digits decimal.exponent low twos
  let belowHigh := compareScaled decimal.digits decimal.exponent high twos
  (aboveLow == .gt || even && aboveLow == .eq) && (belowHigh == .lt || even && belowHigh == .eq)

/-- The number divided by a power of ten, rounded down, with twice the remainder compared to the
divisor: which way the nearer integer lies. -/
def divideByTen (number : Binary64) (tens : Int) : Nat × Ordering :=
  let numerator :=
    number.significand * Nat.pow 2 number.exponent.toNat * Nat.pow 10 (-tens).toNat
  let denominator := Nat.pow 10 tens.toNat * Nat.pow 2 (-number.exponent).toNat
  (numerator / denominator, compare (2 * (numerator % denominator)) denominator)

/-- The power of ten of the leading digit of a number that is not zero. -/
def magnitude (number : Binary64) : Int :=
  ((toString (number.divideByTen (-400)).1).length : Int) - 1 - 400

/-- The decimal with so many digits that is nearest to the number among those that read back. -/
def withDigits? (number : Binary64) (count : Nat) : Option Decimal :=
  let tens := number.magnitude + 1 - count
  let (below, side) := number.divideByTen tens
  let lower : Decimal := ⟨below, tens⟩
  let upper : Decimal := ⟨below + 1, tens⟩
  let (first, second) := if side = .lt then (lower, upper) else (upper, lower)
  if number.readsBack first then some first
  else if number.readsBack second then some second
  else none

/-- Drops zeros at the end of the digits. -/
def stripZeros : Nat → Decimal → Decimal
  | 0, decimal => decimal
  | steps + 1, decimal =>
    if decimal.digits % 10 = 0 then stripZeros steps ⟨decimal.digits / 10, decimal.exponent + 1⟩
    else decimal

/-- The shortest decimal that reads back as a number that is not zero. Seventeen digits always
do. -/
def shortest (number : Binary64) : Decimal :=
  stripZeros 20 (((List.range 17).findSome? fun count =>
    number.withDigits? (count + 1)).getD ⟨0, 0⟩)

end Binary64

/-- A decimal that is not zero, by position or with an exponent. -/
def decimalText (decimal : Decimal) : String :=
  let digits := toString decimal.digits
  let leading := (digits.length : Int) - 1 + decimal.exponent
  let chars := digits.toList
  if leading < -4 || 16 ≤ leading then
    let tail := String.ofList (chars.drop 1)
    String.ofList (chars.take 1) ++ (if tail = "" then "" else "." ++ tail) ++ "e" ++
      toString leading
  else if leading < 0 then
    "0." ++ "".pushn '0' ((-leading).toNat - 1) ++ digits
  else if 0 ≤ decimal.exponent then
    digits ++ "".pushn '0' decimal.exponent.toNat ++ ".0"
  else
    String.ofList (chars.take (leading.toNat + 1)) ++ "." ++
      String.ofList (chars.drop (leading.toNat + 1))

/-- A finite number, with a point or an exponent in any case. -/
def floatText (bits : UInt64) : String :=
  let number := Binary64.ofBits bits
  (if isNegative bits then "-" else "") ++
    if number.significand = 0 then "0.0" else decimalText number.shortest

end ObjectLowering.Text
