import SourceGen.Json.Fault
/-! Numbers in JSON documents. -/

namespace SourceGen.Json

/-- A number as it is read: a whole number of 64 bits, or a floating point number. -/
inductive Number where
  | integer (value : Int)
  | decimal (negative : Bool) (value : Decimal.Binary)
  deriving DecidableEq, Repr

def digit (c : Char) : Nat :=
  c.toNat - 48

/-- The value of the digits at the front as far as it is below a bound, and the digits left over. -/
def digitsBelow (bound : Nat) : Nat → List Char → Nat × List Char
  | value, [] => (value, [])
  | value, c :: rest =>
    if value * 10 + digit c < bound then digitsBelow bound (value * 10 + digit c) rest
    else (value, c :: rest)

def integerBound : Nat := 1 <<< 64

/-- The bound on exponents. -/
def exponentBound : Nat := 1 <<< 31

/-- The greatest power of ten that a floating point number holds. -/
def greatestPower : Nat := 308

/-- Scales a floating point number by a power of ten. Each step is rounded, and steps by the greatest
power come first; four of them bring every significand of 64 bits to zero. -/
def scale? (exponent : Int) : Nat → Decimal.Binary → Option Decimal.Binary
  | 0, significand => some significand
  | steps + 1, significand =>
    let power (exponent : Nat) : Option Decimal.Binary :=
      Decimal.BinaryFormat.double.round? (10 ^ exponent)
    if exponent.natAbs ≤ greatestPower then
      (power exponent.natAbs).bind fun factor =>
        Decimal.BinaryFormat.double.round? <|
          if 0 ≤ exponent then significand.value * factor.value
          else significand.value / factor.value
    else if significand.mantissa = 0 then some significand
    else if 0 ≤ exponent then none
    else
      (power greatestPower).bind fun factor =>
        (Decimal.BinaryFormat.double.round? (significand.value / factor.value)).bind
          (scale? (exponent + greatestPower) steps)

/-- The floating point number `significand * 10 ^ exponent` in front of the rest of a document. -/
def scaled (negative : Bool) (significand : Nat) (exponent : Int) (rest : List Char) :
    Reading Number :=
  match (Decimal.BinaryFormat.double.round? significand).bind (scale? exponent 4) with
  | some value => .ok (.decimal negative value, rest)
  | none => .error (.before .numberRange rest)

/-- Reads an exponent behind its letter, which is added to the one known so far. -/
def exponent (negative : Bool) (significand : Nat) (known : Int) (chars : List Char) :
    Reading Number :=
  let (positive, rest) : Bool × List Char :=
    match chars with
    | '+' :: rest => (true, rest)
    | '-' :: rest => (false, rest)
    | chars => (true, chars)
  match rest with
  | [] => .error (.before .endInValue [])
  | c :: _ =>
    if !c.isDigit then .error (.within .number rest)
    else
      let digits := rest.takeWhile Char.isDigit
      let after := rest.dropWhile Char.isDigit
      let (value, beyond) := digitsBelow exponentBound 0 digits
      if beyond.isEmpty then
        scaled negative significand (known + if positive then (value : Int) else -value) after
      else if positive && significand ≠ 0 then
        .error (.before .numberRange (beyond.drop 1 ++ after))
      else scaled negative 0 0 after

/-- Reads what stands behind the digits of a significand: an exponent or nothing. -/
def exponentOrEnd (negative : Bool) (significand : Nat) (known : Int) (rest : List Char) :
    Reading Number :=
  match rest with
  | 'e' :: rest => exponent negative significand known rest
  | 'E' :: rest => exponent negative significand known rest
  | rest => scaled negative significand known rest

/-- Reads the digits behind a point. -/
def fraction (negative : Bool) (significand : Nat) (known : Int) (chars : List Char) :
    Reading Number :=
  let digits := chars.takeWhile Char.isDigit
  if digits.isEmpty then
    .error (.within (if chars.isEmpty then .endInValue else .number) chars)
  else
    let (value, beyond) := digitsBelow integerBound significand digits
    let places : Int := digits.length - beyond.length
    exponentOrEnd negative value (known - places) (chars.dropWhile Char.isDigit)

/-- A whole number, unless it is a negative one that has no place among those of 64 bits. -/
def whole (negative : Bool) (value : Nat) (rest : List Char) : Reading Number :=
  if !negative then .ok (.integer value, rest)
  else if value = 0 ∨ 1 <<< 63 < value then scaled true value 0 rest
  else .ok (.integer (-value), rest)

/-- Reads a number behind its sign. The digits of the significand that do not fit in 64 bits count
as places only. -/
def unsigned (negative : Bool) (chars : List Char) : Reading Number :=
  match chars with
  | [] => .error (.before .endInValue [])
  | first :: next =>
    let digits := chars.takeWhile Char.isDigit
    let after := chars.dropWhile Char.isDigit
    let (value, beyond) := digitsBelow integerBound 0 digits
    if digits.isEmpty then .error (.within .number chars)
    else if first = '0' && digits ≠ ['0'] then .error (.within .number next)
    else
      match after with
      | '.' :: rest => fraction negative value beyond.length rest
      | rest =>
        if beyond.isEmpty && !(['e', 'E'].any fun c => rest.head? == some c) then
          whole negative value rest
        else exponentOrEnd negative value beyond.length rest

def number (chars : List Char) : Reading Number :=
  match chars with
  | '-' :: rest => unsigned true rest
  | chars => unsigned false chars

/-- Skips the digits of an exponent behind its letter. -/
def skipExponent (chars : List Char) : Except Error (List Char) :=
  let rest := match chars with
    | '+' :: rest => rest
    | '-' :: rest => rest
    | chars => chars
  match rest with
  | [] => .error (.before .number [])
  | c :: _ => if c.isDigit then .ok (rest.dropWhile Char.isDigit) else .error (.within .number rest)

def skipExponentOrEnd (rest : List Char) : Except Error (List Char) :=
  match rest with
  | 'e' :: rest => skipExponent rest
  | 'E' :: rest => skipExponent rest
  | rest => .ok rest

/-- Skips a number behind its sign. Its size does not matter. -/
def skipUnsigned (chars : List Char) : Except Error (List Char) :=
  match chars with
  | [] => .error (.before .number [])
  | first :: next =>
    let digits := chars.takeWhile Char.isDigit
    if digits.isEmpty then .error (.within .number chars)
    else if first = '0' && digits ≠ ['0'] then .error (.within .number next)
    else
      match chars.dropWhile Char.isDigit with
      | '.' :: rest =>
        if (rest.takeWhile Char.isDigit).isEmpty then .error (.within .number rest)
        else skipExponentOrEnd (rest.dropWhile Char.isDigit)
      | rest => skipExponentOrEnd rest

def skipNumber (chars : List Char) : Except Error (List Char) :=
  match chars with
  | '-' :: rest => skipUnsigned rest
  | chars => skipUnsigned chars

end SourceGen.Json
