/-! The shortest decimal that reads back as a binary floating point number. -/

namespace SourceGen.Decimal

/-- The widths of the fields of a binary floating point number. -/
structure BinaryFormat where
  fractionBits : Nat
  exponentBits : Nat

/-- Numbers of 32 bits. -/
def BinaryFormat.single : BinaryFormat := ⟨23, 8⟩

/-- Numbers of 64 bits. -/
def BinaryFormat.double : BinaryFormat := ⟨52, 11⟩

/-- What is taken from the exponent field of a number to get the exponent of its mantissa. -/
def BinaryFormat.bias (format : BinaryFormat) : Nat :=
  (1 <<< (format.exponentBits - 1)) - 1 + format.fractionBits

/-- What the bits of a floating point number stand for. A finite number is
`mantissa * 2 ^ exponent`; it is `narrow` when its lower neighbour is nearer than its upper one. -/
inductive BinaryValue where
  | notANumber
  | infinite (negative : Bool)
  | finite (negative : Bool) (mantissa : Nat) (exponent : Int) (narrow : Bool)

/-- The number that the bits stand for. -/
def BinaryFormat.decode (format : BinaryFormat) (bits : Nat) : BinaryValue :=
  let fraction := bits % (1 <<< format.fractionBits)
  let biased := (bits >>> format.fractionBits) % (1 <<< format.exponentBits)
  let negative := (bits >>> (format.fractionBits + format.exponentBits)) % 2 == 1
  if biased = (1 <<< format.exponentBits) - 1 then
    if fraction = 0 then .infinite negative else .notANumber
  else if biased = 0 then .finite negative fraction (1 - format.bias) false
  else
    .finite negative ((1 <<< format.fractionBits) + fraction) (biased - format.bias)
      (fraction == 0 && decide (1 < biased))

/-- The decimal number `digits * 10 ^ exponent`. -/
structure Value where
  digits : Nat
  exponent : Int

/-- A positive binary number and the numbers that round to it, all in quarters of its unit in the
last place. -/
structure Interval where
  lower : Nat
  value : Nat
  upper : Nat
  closed : Bool
  exponent : Int

/-- The numbers that round to `mantissa * 2 ^ exponent`; the ends belong to an even mantissa. -/
def Interval.around (mantissa : Nat) (exponent : Int) (narrow : Bool) : Interval where
  lower := if narrow then 4 * mantissa - 1 else 4 * mantissa - 2
  value := 4 * mantissa
  upper := 4 * mantissa + 2
  closed := mantissa % 2 == 0
  exponent := exponent - 2

/-- The unit `10 ^ tens` on the scale where `quarters` units of the interval are whole. -/
def Interval.unit (interval : Interval) (tens : Int) : Nat :=
  Nat.pow 10 tens.toNat <<< (-interval.exponent).toNat

/-- A point of the interval on the scale of `Interval.unit`. -/
def Interval.scale (interval : Interval) (tens : Int) (quarters : Nat) : Nat :=
  (quarters * Nat.pow 10 (-tens).toNat) <<< interval.exponent.toNat

/-- Whether `digits * 10 ^ tens` lies in the interval. -/
def Interval.contains (interval : Interval) (tens : Int) (digits : Nat) : Bool :=
  let point := digits * interval.unit tens
  let lower := interval.scale tens interval.lower
  let upper := interval.scale tens interval.upper
  if interval.closed then lower ≤ point && point ≤ upper else lower < point && point < upper

/-- The multiple of `10 ^ tens` in the interval that is nearest to its value, of two equally near
ones the greater. -/
def Interval.nearest? (interval : Interval) (tens : Int) : Option Nat :=
  let unit := interval.unit tens
  let value := interval.scale tens interval.value
  let below := value / unit
  match interval.contains tens below, interval.contains tens (below + 1) with
  | true, true => some (if 2 * (value % unit) < unit then below else below + 1)
  | true, false => some below
  | false, true => some (below + 1)
  | false, false => none

/-- The place above the leading digit of the value: the least `k` with `value < 10 ^ k`. No number
of 64 bits is below `10 ^ (-400)`. -/
def Interval.leading (interval : Interval) : Int :=
  let scaled := interval.scale (-400) interval.value / interval.unit (-400)
  (Nat.toDigits 10 scaled).length - 400

/-- The first decimal in the interval, from `count` places on and at most `limit` more. -/
def Interval.search (interval : Interval) (leading : Int) (count : Nat) : Nat → Value
  | 0 => ⟨interval.value / 4, interval.exponent⟩
  | limit + 1 =>
    match interval.nearest? (leading - count) with
    | some digits => ⟨digits, leading - count⟩
    | none => interval.search leading (count + 1) limit

/-- The nearest of the shortest decimals that round to `mantissa * 2 ^ exponent`. -/
def shortest (mantissa : Nat) (exponent : Int) (narrow : Bool) : Value :=
  let interval := Interval.around mantissa exponent narrow
  interval.search interval.leading 1 17

/-- The digits of a decimal without the zeros at their end, and the place above the leading one. -/
def Value.significant (decimal : Value) : List Char × Int :=
  let digits := Nat.toDigits 10 decimal.digits
  (((digits.reverse.dropWhile (· = '0')).reverse), digits.length + decimal.exponent)

/-- How numbers are spelled: from `10 ^ least` to below `10 ^ 16` positionally, else with a power of
ten, whose sign is always shown if it is `signed`. -/
structure Spelling where
  least : Int
  signed : Bool

def Spelling.power (spelling : Spelling) (exponent : Int) : List Char :=
  'e' :: (if spelling.signed && decide (0 ≤ exponent) then ['+'] else []) ++
    (toString exponent).toList

/-- Digits with a point after the first, followed by the power of ten. -/
def Spelling.scientific (spelling : Spelling) (digits : List Char) (place : Int) : List Char :=
  let fraction := digits.drop 1
  digits.take 1 ++ (if fraction.isEmpty then [] else '.' :: fraction) ++
    spelling.power (place - 1)

/-- Digits with the point at `place`, and at least one digit on either side of it. -/
def positional (digits : List Char) (place : Int) : List Char :=
  let count := place.toNat
  let whole := digits.take count ++ List.replicate (count - digits.length) '0'
  let fraction := List.replicate (-place).toNat '0' ++ digits.drop count
  (if whole.isEmpty then ['0'] else whole) ++ '.' ::
    (if fraction.isEmpty then ['0'] else fraction)

def Spelling.decimal (spelling : Spelling) (decimal : Value) : List Char :=
  let (digits, place) := decimal.significant
  if spelling.least < place && place ≤ 16 then positional digits place
  else spelling.scientific digits place

/-- The text of a finite number; zero keeps its sign. -/
def Spelling.finite (spelling : Spelling) (negative : Bool) (mantissa : Nat) (exponent : Int)
    (narrow : Bool) : String :=
  let digits :=
    if mantissa = 0 then "0.0".toList
    else spelling.decimal (shortest mantissa exponent narrow)
  String.ofList (if negative then '-' :: digits else digits)

end SourceGen.Decimal
