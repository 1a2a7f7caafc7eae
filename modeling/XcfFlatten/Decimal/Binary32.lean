/-!
# Binary32 numbers as decimals

`Binary32.toDecimal` writes a binary32 number with the fewest digits that read back as the same
number, always positionally. All arithmetic is exact: a finite number is `mantissa * 2 ^ exponent`,
and the decimals that read back as it are those between the midpoints to its two neighbours.
-/

namespace XcfFlatten.Binary32

/-- A positive number `value / scale` and the ends of the interval of numbers that round to it, over
the same denominator. -/
structure Interval where
  low : Nat
  value : Nat
  high : Nat
  scale : Nat
  /-- Whether the ends belong to the interval. Ties go to the even mantissa. -/
  closed : Bool

/-- How many values the fraction field of a number can have. -/
def fractionCount : Nat := 0x800000

/-- The interval of a positive finite number, from its exponent and fraction fields. Below a power
of two the numbers lie twice as close. -/
def interval (exponent fraction : Nat) : Interval :=
  let mantissa := if exponent = 0 then fraction else fraction + fractionCount
  let power := max exponent 1
  let gapBelow := if fraction = 0 ∧ 1 < exponent then 1 else 2
  -- In quarters of the last place, which is `2 ^ (power - 150)`.
  let up := Nat.pow 2 (power - 152)
  { low := (4 * mantissa - gapBelow) * up
    value := 4 * mantissa * up
    high := (4 * mantissa + 2) * up
    scale := Nat.pow 2 (152 - power)
    closed := mantissa % 2 = 0 }

/-- Whether `digits * 10 ^ place` lies in the interval. -/
def Interval.holds (i : Interval) (digits : Nat) (place : Int) : Bool :=
  let point := digits * Nat.pow 10 place.toNat * i.scale
  let unit := Nat.pow 10 (-place).toNat
  if i.closed then i.low * unit ≤ point && point ≤ i.high * unit
  else i.low * unit < point && point < i.high * unit

/-- The decimal with its last digit at a place that lies in the interval and is nearest to the
value, if any does. Of two equally near ones it is the greater. -/
def Interval.at? (i : Interval) (place : Int) : Option (Nat × Int) :=
  let unit := i.scale * Nat.pow 10 place.toNat
  let value := i.value * Nat.pow 10 (-place).toNat
  let digits := value / unit
  let roundsUp := unit ≤ 2 * (value % unit)
  match i.holds digits place, i.holds (digits + 1) place with
  | true, true => some (if roundsUp then digits + 1 else digits, place)
  | true, false => some (digits, place)
  | false, true => some (digits + 1, place)
  | false, false => none

/-- The shortest decimal in the interval: the one whose last digit is farthest to the left. -/
def Interval.shortest (i : Interval) : Nat × Int :=
  ((List.range 100).findSome? fun (n : Nat) => i.at? (40 - (n : Int))).getD (0, 0)

/-- The number `digits * 10 ^ place`, written positionally. -/
def positional (digits : Nat) (place : Int) : String :=
  let text := String.ofList (Nat.toDigits 10 digits)
  if 0 ≤ place then text ++ String.ofList (List.replicate place.toNat '0')
  else
    let fraction := (-place).toNat
    let padded := List.replicate (fraction + 1 - text.length) '0' ++ text.toList
    let point := padded.length - fraction
    String.ofList (padded.take point) ++ "." ++ String.ofList (padded.drop point)

/-- The text of the number with the given bit pattern. -/
def toDecimal (bits : UInt32) : String :=
  let exponent := (bits.toNat / fractionCount) % 256
  let fraction := bits.toNat % fractionCount
  let sign := if bits.toNat < 0x80000000 then "" else "-"
  if exponent = 255 then
    if fraction = 0 then sign ++ "inf" else "NaN"
  else if exponent = 0 ∧ fraction = 0 then sign ++ "0"
  else
    let (digits, place) := (interval exponent fraction).shortest
    sign ++ positional digits place

end XcfFlatten.Binary32
