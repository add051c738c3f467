namespace JavaAtlas

/-! # Floating-point numbers

Numbers of 64 bits in the binary format: finite, with a sign. Each is a whole multiple of the
smallest one above zero, so that all of it is arithmetic of natural numbers: an exact quotient is
formed first and then rounded once, to the nearest number and in a tie to the even one.
-/

/-- A finite number: `mantissa` times two to the power `exponent`, in units of two to the power
-1074. The mantissa has 53 bits, fewer only if the exponent is zero. -/
structure Binary64 where
  negative : Bool := false
  mantissa : Nat
  exponent : Nat
deriving DecidableEq, Inhabited, Repr

namespace Binary64

/-- Two to the power `n`. -/
def two (n : Nat) : Nat := 1 <<< n

/-- Two to the power -1074 is the unit. -/
def unitBits : Nat := 1074

/-- The largest exponent. -/
def maxExponent : Nat := 2045

/-- The quotient, rounded to the nearest whole number and in a tie to the even one. -/
def roundDiv (n d : Nat) : Nat :=
  let q := n / d
  let twice := 2 * (n % d)
  if twice > d || (twice == d && q % 2 == 1) then q + 1 else q

/-- The number nearest to `n` units over `d`; none if that is out of range. -/
def ofUnits? (n d : Nat) : Option Binary64 :=
  let bits := (n / d).log2 + 1
  let exponent := bits - 53
  let mantissa := roundDiv n (d * two exponent)
  let (mantissa, exponent) :=
    if mantissa < two 53 then (mantissa, exponent) else (mantissa / 2, exponent + 1)
  if exponent > maxExponent then none else some { mantissa, exponent }

/-- The number nearest to a natural number; none if that is out of range. -/
def ofNat? (n : Nat) : Option Binary64 := ofUnits? (n * two unitBits) 1

/-- The magnitude in units. -/
def units (x : Binary64) : Nat := x.mantissa * two x.exponent

/-- Whether the number is zero, of either sign. -/
def isZero (x : Binary64) : Bool := x.mantissa == 0

/-- The product of two magnitudes; none if that is out of range. -/
def mul? (x y : Binary64) : Option Binary64 := ofUnits? (x.units * y.units) (two unitBits)

/-- The quotient of two magnitudes; none if that is out of range. -/
def div? (x y : Binary64) : Option Binary64 := ofUnits? (x.units * two unitBits) y.units

/-! ## From decimal digits

A number is found in two steps, each rounded: the digits are one number, the power of ten another,
and the result is their product or quotient. It may differ in the last place from the number that
is nearest to the digits.
-/

/-- The largest power of ten that is a number. -/
def maxPower : Nat := 308

/-- The number nearest to a power of ten; none if that is out of range. -/
def tenTo? (n : Nat) : Option Binary64 := ofNat? (Nat.pow 10 n)

/-- A magnitude times a power of ten; none if that is out of range. Small powers are taken in
steps; `fuel` bounds their number, which is small since the magnitude soon is zero. -/
def scale? : Nat → Binary64 → Int → Option Binary64
  | 0, x, _ => some x
  | fuel + 1, x, exponent =>
    if exponent.natAbs ≤ maxPower then do
      let power ← tenTo? exponent.natAbs
      if exponent ≥ 0 then x.mul? power else x.div? power
    else if x.isZero then some x
    else if exponent ≥ 0 then none
    else do scale? fuel (← x.div? (← tenTo? maxPower)) (exponent + maxPower)

/-- The number that decimal digits and an exponent stand for; none if it is out of range. -/
def ofDigits? (negative : Bool) (digits : Nat) (exponent : Int) : Option Binary64 := do
  let x ← scale? 8 (← ofNat? digits) exponent
  return { x with negative }

/-! ## To decimal digits

Of all decimal fractions that are nearer to the number than to any other, one with the fewest
digits is taken, and of these the nearest.
-/

/-- The number of decimal digits. -/
def digitCount (n : Nat) : Nat := (toString n).length

/-- Ten to a power, as numerator and denominator. -/
def tenRatio : Int → Nat × Nat
  | .ofNat n => (Nat.pow 10 n, 1)
  | .negSucc n => (1, Nat.pow 10 (n + 1))

/-- The power of ten of the first digit of a number other than zero. -/
def leading (x : Binary64) : Int :=
  (digitCount (x.units * Nat.pow 10 400 / two unitBits) : Int) - 401

/-- Whether `digits` times ten to the power `exponent` is nearer to the number than to others. -/
def stands (x : Binary64) (digits : Nat) (exponent : Int) : Bool :=
  let (n, d) := tenRatio exponent
  match ofUnits? (digits * n * two unitBits) d with
  | some y => y.mantissa == x.mantissa && y.exponent == x.exponent
  | none => false

/-- The digits of the shortest fraction, with the power of ten of the last of them. `count` is
how many digits are tried first. -/
def shortestFrom (x : Binary64) : Nat → Nat → Nat × Int
  | 0, count => (0, count)
  | fuel + 1, count =>
    let exponent := x.leading + 1 - count
    let (n, d) := tenRatio exponent
    let top := x.units * d
    let bottom := two unitBits * n
    let low := top / bottom
    let twice := 2 * (top % bottom)
    let lowFirst := twice < bottom || (twice == bottom && low % 2 == 0)
    let (first, second) := if lowFirst then (low, low + 1) else (low + 1, low)
    if x.stands first exponent then (first, exponent)
    else if x.stands second exponent then (second, exponent)
    else shortestFrom x fuel (count + 1)

/-- Digits without zeros at the end; at most `fuel` zeros are dropped. -/
def dropZeros : Nat → Nat × Int → Nat × Int
  | 0, x => x
  | fuel + 1, (digits, exponent) =>
    if digits % 10 == 0 && digits != 0 then dropZeros fuel (digits / 10, exponent + 1)
    else (digits, exponent)

/-- The shortest digits of a number other than zero, with the power of ten of the last of them. -/
def shortest (x : Binary64) : Nat × Int := dropZeros 20 (x.shortestFrom 17 1)

/-- Some zeros. -/
def zeros (n : Nat) : List Char := List.replicate n '0'

/-- The magnitude as text: written out if the first digit is not too far from the point, else with
an exponent. -/
def magnitudeText (x : Binary64) : String :=
  if x.isZero then "0.0"
  else
    let (digits, last) := x.shortest
    let shown := (toString digits).toList
    let count := shown.length
    let first := last + count - 1
    if -5 ≤ first && first ≤ 15 then
      match first with
      | .ofNat n =>
        if count ≤ n + 1 then String.ofList (shown ++ zeros (n + 1 - count)) ++ ".0"
        else String.ofList (shown.take (n + 1) ++ '.' :: shown.drop (n + 1))
      | .negSucc n => String.ofList ([ '0', '.'] ++ zeros n ++ shown)
    else
      let tail := shown.drop 1
      let sign := if first < 0 then "-" else "+"
      String.ofList (shown.take 1 ++ (if tail.isEmpty then [] else '.' :: tail)) ++
        s!"e{sign}{first.natAbs}"

/-- The number as text. -/
def text (x : Binary64) : String := (if x.negative then "-" else "") ++ x.magnitudeText

end Binary64

end JavaAtlas
