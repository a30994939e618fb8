import SourceGen.Decimal.Shortest
/-! Rounding of exact numbers to binary floating point numbers. -/

namespace SourceGen.Decimal

/-- The whole number nearest to one that is not negative, the even one of two equally near ones. -/
def nearestEven (x : Rat) : Nat :=
  let below := x.floor.toNat
  let rest := x - below
  if rest < 1 / 2 ∨ (rest = 1 / 2 ∧ below % 2 = 0) then below else below + 1

/-- The binary number `mantissa * 2 ^ exponent`. -/
structure Binary where
  mantissa : Nat
  exponent : Int
  deriving DecidableEq, Repr

def Binary.value (binary : Binary) : Rat :=
  binary.mantissa * 2 ^ binary.exponent

namespace BinaryFormat

variable (format : BinaryFormat)

def leastExponent : Int :=
  1 - format.bias

def greatestExponent : Int :=
  (1 <<< format.exponentBits : Nat) - 2 - format.bias

def mantissaBound : Nat :=
  1 <<< (format.fractionBits + 1)

/-- The exponent of the mantissa that a positive number is rounded to. The lengths of numerator and
denominator tell it up to one. -/
def unitExponent (x : Rat) : Int :=
  let rough : Int := x.num.toNat.log2 - x.den.log2 - (format.fractionBits + 1)
  max format.leastExponent
    (if x < format.mantissaBound * 2 ^ rough then rough else rough + 1)

/-- The number of the format nearest to one that is not negative, or none if that is infinite. -/
def round? (x : Rat) : Option Binary :=
  let exponent := format.unitExponent x
  let mantissa := nearestEven (x / 2 ^ exponent)
  let rounded : Binary :=
    if mantissa = format.mantissaBound then ⟨mantissa / 2, exponent + 1⟩ else ⟨mantissa, exponent⟩
  if rounded.exponent ≤ format.greatestExponent then some rounded else none

/-- Whether the lower neighbour of a number of the format is nearer than its upper one. -/
def isNarrow (binary : Binary) : Bool :=
  2 * binary.mantissa == format.mantissaBound && decide (format.leastExponent < binary.exponent)

end BinaryFormat

def Spelling.binary (spelling : Spelling) (format : BinaryFormat) (negative : Bool)
    (binary : Binary) : String :=
  spelling.finite negative binary.mantissa binary.exponent (format.isNarrow binary)

end SourceGen.Decimal
